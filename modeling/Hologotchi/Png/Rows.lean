import Hologotchi.Png.Filters

/-! Which image data is read, and as which picture. -/
namespace Hologotchi.Png

open Library.Fallible Library.Predictive

variable {f : FilterType} {prev out raw data : List UInt8} {v : UInt8} {stride height k : ℕ}
  {rows : List (List UInt8)}

theorem filterType_of_ok {filterType encoded left up upperLeft value : ℕ}
    (h : unfilteredValue filterType encoded left up upperLeft = .ok value) :
    ∃ f : FilterType, filterType = f.code.toNat := by
  unfold unfilteredValue at h
  split at h
  · exact ⟨.none, rfl⟩
  · exact ⟨.sub, rfl⟩
  · exact ⟨.up, rfl⟩
  · exact ⟨.average, rfl⟩
  · exact ⟨.paeth, rfl⟩
  · contradiction

/-- A scanline that is not empty names its filter. -/
theorem filterType_of_scanline {filterType : UInt8} (hne : raw ≠ [])
    (h : unfilterScanline filterType.toNat raw prev 4 = .ok out) :
    ∃ f : FilterType, filterType = f.code := by
  cases raw with
  | nil => contradiction
  | cons encoded raw =>
    rw [unfilterScanline, unfilterFrom] at h
    obtain ⟨byte, hbyte, -⟩ := bind_eq_ok.mp h
    rw [unfilterByte] at hbyte
    obtain ⟨up, -, hbyte⟩ := bind_eq_ok.mp hbyte
    obtain ⟨upperLeft, -, hbyte⟩ := bind_eq_ok.mp hbyte
    obtain ⟨value, hvalue, -⟩ := bind_eq_ok.mp hbyte
    obtain ⟨f, hf⟩ := filterType_of_ok hvalue
    exact ⟨f, UInt8.toNat_inj.mp hf⟩

/-- Only its residual is restored to a byte. -/
theorem residual_of_unfilterByte {encoded : UInt8} (hlt : out.length < prev.length)
    (h : unfilterByte f.code.toNat prev 4 out encoded = .ok v) :
    v - f.expected prev out out.length = encoded := by
  have hself := unfilterByte_residual (f := f) (v := encoded + f.expected prev out out.length) hlt
  rw [UInt8.add_sub_cancel, h] at hself
  rw [Except.ok.inj hself, UInt8.add_sub_cancel]

/-- Only what the filter makes of it is restored to a line. -/
theorem filter_of_unfilterScanline (hle : data.length ≤ prev.length)
    (h : unfilterScanline f.code.toNat data prev 4 = .ok raw) : f.filter prev raw = data := by
  rw [unfilterScanline, unfilterFrom_eq_decodeAll] at h
  cases hdecode : (byteCoder f prev).decodeAll [] data with
  | error e =>
    rw [hdecode] at h
    contradiction
  | ok bytes =>
    rw [hdecode] at h
    cases h
    rw [filter_eq_encodeAll]
    refine Coder.encodeAll_of_decodeAll (I := fun n out => out.length + n ≤ prev.length) ?_
      (by simpa using hle) hdecode
    intro n out encoded v hout hv
    refine ⟨residual_of_unfilterByte (by omega) hv, ?_⟩
    simp only [byteCoder, List.length_append, List.length_singleton]
    omega

theorem encodeAll_congr {filters others : ℕ → FilterType} (h : ∀ y, k ≤ y → filters y = others y) :
    (rowCoder filters).encodeAll (k, prev) rows = (rowCoder others).encodeAll (k, prev) rows := by
  induction rows generalizing k prev with
  | nil => rfl
  | cons row rows ih =>
    have hrest : (rowCoder filters).encodeAll (k + 1, row) rows =
        (rowCoder others).encodeAll (k + 1, row) rows := ih fun y hy => h y (by omega)
    rw [Coder.encodeAll_cons, Coder.encodeAll_cons]
    simp only [rowCoder] at hrest ⊢
    rw [h k (Nat.le_refl k), hrest]

/-- Data that is read is what filters make of the rows that come out. -/
theorem codes_of_readRows (hstride : 0 < stride) (hprev : prev.length = stride)
    (hlength : data.length = height * (stride + 1))
    (h : readRows stride height prev data = .ok rows) :
    rows.length = height ∧ (∀ row ∈ rows, row.length = stride) ∧
      ∃ filters, data = ((rowCoder filters).encodeAll (k, prev) rows).flatten := by
  induction height generalizing prev data rows k with
  | zero =>
    cases h
    rw [Nat.zero_mul] at hlength
    exact ⟨rfl, by simp, fun _ => .none, List.length_eq_zero_iff.mp hlength⟩
  | succ height ih =>
    cases data with
    | nil =>
      simp [Nat.succ_mul] at hlength
    | cons filterType data =>
      rw [readRows, List.drop_one, List.tail_cons] at h
      obtain ⟨head, hhead, h⟩ := bind_eq_ok.mp h
      cases hhead
      obtain ⟨row, hrow, h⟩ := bind_eq_ok.mp h
      obtain ⟨rest, hrest, h⟩ := bind_eq_ok.mp h
      cases h
      rw [List.length_cons, Nat.succ_mul] at hlength
      have hscanline : (data.take stride).length = stride := List.length_take_of_le (by omega)
      obtain ⟨f, rfl⟩ : ∃ f : FilterType, filterType = f.code := by
        refine filterType_of_scanline ?_ hrow
        exact List.ne_nil_of_length_pos (by omega)
      have hfilter := filter_of_unfilterScanline (by omega) hrow
      have hrowLength : row.length = stride := by
        rw [← hscanline, ← hfilter, FilterType.filter, List.length_mapIdx]
      obtain ⟨hcount, hrows, filters, hcodes⟩ := ih (k := k + 1) hrowLength
        (by rw [List.length_drop]; omega) hrest
      refine ⟨by rw [List.length_cons, hcount], List.forall_mem_cons.mpr ⟨hrowLength, hrows⟩,
        Function.update filters k f, ?_⟩
      have hlater : (rowCoder (Function.update filters k f)).encodeAll (k + 1, row) rest =
          (rowCoder filters).encodeAll (k + 1, row) rest :=
        encodeAll_congr fun y hy => Function.update_of_ne (by omega) _ _
      have hencode : (rowCoder (Function.update filters k f)).encode (k, prev) row =
          f.code :: f.filter prev row := by
        simp only [rowCoder, Function.update_self]
      rw [Coder.encodeAll_cons, List.flatten_cons, hencode, hfilter]
      change _ = (f.code :: data.take stride) ++
        ((rowCoder (Function.update filters k f)).encodeAll (k + 1, row) rest).flatten
      rw [hlater, ← hcodes, List.cons_append, List.take_append_drop]

/-- Lines without pixels are read whatever their filter types are. -/
theorem readRows_empty (h : height = data.length) :
    readRows 0 height [] data = .ok (List.replicate height []) := by
  induction data generalizing height with
  | nil =>
    cases h
    rfl
  | cons filterType data ih =>
    cases h
    rw [List.length_cons, readRows, List.drop_one, List.tail_cons, List.drop_zero]
    change (readRows 0 data.length [] data).bind _ = _
    rw [ih rfl]
    rfl

theorem map_row_flatten (h : ∀ row ∈ rows, row.length = stride) :
    (List.range rows.length).map (fun y => (rows.flatten.drop (y * stride)).take stride) =
      rows := by
  induction rows with
  | nil => rfl
  | cons row rows ih =>
    obtain ⟨hrow, hrest⟩ := List.forall_mem_cons.mp h
    rw [List.length_cons, List.range_succ_eq_map, List.map_cons, List.map_map, List.flatten_cons,
      Nat.zero_mul, List.drop_zero, List.take_left' hrow]
    refine congrArg (row :: ·) ?_
    refine (List.map_congr_left fun y _ => ?_).trans (ih hrest)
    change ((row ++ rows.flatten).drop ((y + 1) * stride)).take stride = _
    rw [Nat.succ_mul, Nat.add_comm, ← List.drop_drop, List.drop_left' hrow]

namespace Picture

/-- The image data of a picture: its rows with a filter for each. Where the rows have no pixels
their filter types can be any bytes. -/
def Coded (p : Picture) (data : List UInt8) : Prop :=
  if p.width = 0 then data.length = p.height else ∃ filters, data = p.filtered filters

theorem readPixels_of_coded {p : Picture} (path : String) (h : p.Coded data) :
    readPixels path p.width p.height data = .ok p.toRgbaImage := by
  unfold Coded at h
  split at h
  · rename_i hwidth
    have hpixels : p.pixels = [] := by
      rw [← List.length_eq_zero_iff, p.length_pixels, hwidth, Nat.zero_mul, Nat.mul_zero]
    have hlength : ¬ data.length ≠ p.height * (0 * 4 + 1) := by
      rw [h]
      omega
    rw [readPixels, hwidth, if_neg hlength]
    refine bind_eq_ok.mpr ⟨_, readRows_empty h.symm, ?_⟩
    rw [← hwidth, List.flatten_replicate_nil, ← hpixels]
  · obtain ⟨filters, rfl⟩ := h
    exact readPixels_filtered path p filters

theorem exists_of_readPixels {path : String} {width : ℕ} {image : RgbaImage}
    (h : readPixels path width height data = .ok image) :
    ∃ p : Picture, p.toRgbaImage = image ∧ p.width = width ∧ p.height = height ∧ p.Coded data := by
  rw [readPixels] at h
  obtain ⟨hlength, h⟩ := of_ite_error h
  rw [not_not] at hlength
  obtain ⟨rows, hrows, h⟩ := bind_eq_ok.mp h
  cases h
  rcases Nat.eq_zero_or_pos width with rfl | hwidth
  · have hdata : data.length = height := by omega
    have hnone := readRows_empty hdata.symm
    rw [show List.replicate (0 * 4) (0 : UInt8) = [] from rfl, Nat.zero_mul, hnone] at hrows
    cases hrows
    refine ⟨⟨⟨0, height, (List.replicate height []).flatten⟩, by simp⟩, rfl, rfl, rfl, ?_⟩
    rw [Coded, if_pos rfl]
    exact hdata
  · obtain ⟨hcount, hlengths, filters, hcodes⟩ := codes_of_readRows (k := 0) (by omega)
      List.length_replicate hlength hrows
    have hpixels : rows.flatten.length = height * (width * 4) := by
      rw [List.length_flatten, List.map_congr_left hlengths]
      simp [hcount]
    refine ⟨⟨⟨width, height, rows.flatten⟩, hpixels⟩, rfl, rfl, rfl, ?_⟩
    rw [Coded, if_neg (by dsimp only; omega)]
    refine ⟨filters, ?_⟩
    have hmap := map_row_flatten hlengths
    rw [hcount] at hmap
    rw [filtered_eq_flatten]
    change _ = ((rowCoder filters).encodeAll (0, List.replicate (width * 4) 0)
      ((List.range height).map fun y =>
        (rows.flatten.drop (y * (width * 4))).take (width * 4))).flatten
    rw [hmap]
    exact hcodes

end Picture

end Hologotchi.Png
