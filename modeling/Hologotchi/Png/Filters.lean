import Hologotchi.Library.Fallible
import Hologotchi.Library.Predictive
import Hologotchi.Png.Reader
import Mathlib.Algebra.Order.Group.Unbundled.Int
import Mathlib.Data.List.GetD
import Mathlib.Data.List.MinMax

/-! The filters of the PNG specification, and that reading a file undoes them. -/
namespace Hologotchi.Png

open Library.Fallible Library.Predictive

inductive FilterType
  | none | sub | up | average | paeth
  deriving DecidableEq, Repr

def FilterType.code : FilterType → UInt8
  | none => 0
  | sub => 1
  | up => 2
  | average => 3
  | paeth => 4

/-- Of the three neighbours the one nearest to `a + b - c`, and of equally near ones the first. -/
def nearest (a b c : ℕ) : ℕ :=
  ([a, b, c].argmin fun v : ℕ => ((a + b - c : ℤ) - v).natAbs).getD a

/-- What a filter expects of a byte, from its neighbours to the left, above, and above left. -/
def FilterType.predict (a b c : ℕ) : FilterType → ℕ
  | none => 0
  | sub => a
  | up => b
  | average => (a + b) / 2
  | paeth => nearest a b c

/-- The byte of the pixel before, zero at the left edge. -/
def before (line : List UInt8) (x : ℕ) : ℕ := if 4 ≤ x then (line.getD (x - 4) 0).toNat else 0

def FilterType.expected (f : FilterType) (prior raw : List UInt8) (x : ℕ) : UInt8 :=
  UInt8.ofNat (f.predict (before raw x) (prior.getD x 0).toNat (before prior x))

/-- A scanline filtered against the line above it. -/
def FilterType.filter (f : FilterType) (prior raw : List UInt8) : List UInt8 :=
  raw.mapIdx fun x byte => byte - f.expected prior raw x

/-- An image whose pixels fill it, with four bytes for each. -/
structure Picture extends RgbaImage where
  length_pixels : pixels.length = height * (width * 4)

namespace Picture

def stride (p : Picture) : ℕ := p.width * 4

def row (p : Picture) (y : ℕ) : List UInt8 := (p.pixels.drop (y * p.stride)).take p.stride

/-- The row above, zero for the first one. -/
def prior (p : Picture) : ℕ → List UInt8
  | 0 => List.replicate p.stride 0
  | y + 1 => p.row y

def filteredRow (p : Picture) (filters : ℕ → FilterType) (y : ℕ) : List UInt8 :=
  (filters y).code :: (filters y).filter (p.prior y) (p.row y)

/-- The image data of a PNG file, with a filter chosen for each row. -/
def filtered (p : Picture) (filters : ℕ → FilterType) : List UInt8 :=
  (List.range p.height).flatMap (p.filteredRow filters)

end Picture

variable {f : FilterType} {prev out raw : List UInt8} {v : UInt8} {n : ℕ}

theorem paeth_eq_nearest (a b c : ℕ) : paeth a b c = nearest a b c := by
  have hfirst : ∀ (g : ℕ → ℕ), [a, b, c].argmin g =
      some (if g b < g a then if g c < g b then c else b else if g c < g a then c else a) := by
    intro g
    by_cases hb : g b < g a
    · by_cases hc : g c < g b <;> simp [List.argmin, List.argAux, hb, hc]
    · by_cases hc : g c < g a <;> simp [List.argmin, List.argAux, hb, hc]
  rw [nearest, hfirst]
  simp only [paeth, Option.getD_some, Int.abs_eq_natAbs]
  generalize ((a + b - c : ℤ) - a).natAbs = leftDist
  generalize ((a + b - c : ℤ) - b).natAbs = upDist
  generalize ((a + b - c : ℤ) - c).natAbs = upperLeftDist
  split_ifs <;> first | rfl | omega

theorem item_of_lt {data : List UInt8} {index : ℕ} (h : index < data.length) :
    item data index = .ok (data.getD index 0) := by
  simp [item, List.getD, h]

theorem unfilteredValue_code (f : FilterType) (encoded a b c : ℕ) :
    unfilteredValue f.code.toNat encoded a b c = .ok (encoded + f.predict a b c) := by
  cases f with
  | none => rfl
  | sub => rfl
  | up => rfl
  | average => rfl
  | paeth => exact congrArg (fun p => Except.ok (encoded + p)) (paeth_eq_nearest a b c)

theorem restore_byte (v : UInt8) (p : ℕ) :
    UInt8.ofNat ((v - UInt8.ofNat p).toNat + p &&& 0xff) = v := by
  have hmask (m : ℕ) : m &&& 0xff = m % 256 := Nat.and_two_pow_sub_one_eq_mod m 8
  rw [hmask, UInt8.ofNat_mod_size, UInt8.ofNat_add, UInt8.ofNat_toNat, UInt8.sub_add_cancel]

theorem unfilterByte_residual (h : out.length < prev.length) :
    unfilterByte f.code.toNat prev 4 out (v - f.expected prev out out.length) = .ok v := by
  have hleft : (if 4 ≤ out.length then out.getD (out.length - 4) 0 else 0).toNat =
      before out out.length := by
    rw [before]
    split_ifs <;> rfl
  obtain ⟨upperLeft, hupper, hbefore⟩ :
      ∃ b, (if 4 ≤ out.length then item prev (out.length - 4) else .ok 0) = .ok b ∧
        b.toNat = before prev out.length := by
    unfold before
    split_ifs
    · exact ⟨_, item_of_lt (by omega), rfl⟩
    · exact ⟨0, rfl, rfl⟩
  refine bind_eq_ok.mpr ⟨_, item_of_lt h, bind_eq_ok.mpr ⟨upperLeft, hupper, ?_⟩⟩
  refine bind_eq_ok.mpr ⟨_, unfilteredValue_code f _ _ _ _, ?_⟩
  rw [hleft, hbefore]
  exact congrArg Except.ok (restore_byte v _)

/-- The filter as a coder whose state is the line so far. -/
def byteCoder (f : FilterType) (prev : List UInt8) :
    Coder (List UInt8) UInt8 UInt8 PngError where
  encode out v := v - f.expected prev out out.length
  decode out encoded := unfilterByte f.code.toNat prev 4 out encoded
  next out v := out ++ [v]

theorem unfilterFrom_eq_decodeAll (codes : List UInt8) :
    unfilterFrom f.code.toNat prev 4 out codes =
      ((byteCoder f prev).decodeAll out codes).map (out ++ ·) := by
  induction codes generalizing out with
  | nil => simp [unfilterFrom, Coder.decodeAll, Except.map]
  | cons code codes ih =>
    rw [unfilterFrom, Coder.decodeAll]
    change (unfilterByte f.code.toNat prev 4 out code).bind _ =
      Except.map _ ((unfilterByte f.code.toNat prev 4 out code).bind _)
    cases unfilterByte f.code.toNat prev 4 out code with
    | error e => rfl
    | ok v =>
      change unfilterFrom f.code.toNat prev 4 (out ++ [v]) codes = _
      rw [ih]
      change _ = Except.map _
        (((byteCoder f prev).decodeAll (out ++ [v]) codes).bind fun vs => .ok (v :: vs))
      cases (byteCoder f prev).decodeAll (out ++ [v]) codes with
      | error e => rfl
      | ok vs => simp [Except.map, Except.bind]

theorem before_append {rest : List UInt8} (h : n ≤ out.length) :
    before (out ++ rest) n = before out n := by
  unfold before
  split_ifs with hn
  · rw [List.getD_append _ _ _ _ (by omega)]
  · rfl

theorem encodeAll_eq_mapIdx (rest : List UInt8) :
    (byteCoder f prev).encodeAll out rest =
      rest.mapIdx fun i v => v - f.expected prev (out ++ rest) (out.length + i) := by
  induction rest generalizing out with
  | nil => rfl
  | cons v rest ih =>
    have hexpected : f.expected prev (out ++ v :: rest) out.length =
        f.expected prev out out.length := by
      simp only [FilterType.expected, before_append (Nat.le_refl out.length)]
    rw [Coder.encodeAll_cons, List.mapIdx_cons, ih]
    simp only [byteCoder, Nat.add_zero, hexpected, List.append_assoc, List.singleton_append,
      List.length_append, List.length_singleton, Nat.add_assoc, Nat.add_comm 1]

theorem filter_eq_encodeAll (f : FilterType) (prior raw : List UInt8) :
    f.filter prior raw = (byteCoder f prior).encodeAll [] raw := by
  rw [encodeAll_eq_mapIdx]
  simp only [FilterType.filter, List.nil_append, List.length_nil, Nat.zero_add]

theorem unfilterScanline_filter (h : raw.length ≤ prev.length) :
    unfilterScanline f.code.toNat (f.filter prev raw) prev 4 = .ok raw := by
  have hdecode : (byteCoder f prev).decodeAll [] ((byteCoder f prev).encodeAll [] raw) =
      .ok raw := by
    refine Coder.decodeAll_encodeAll (I := fun n out => out.length + n ≤ prev.length)
      (P := fun _ => True) ?_ (by simpa using h) fun _ _ => trivial
    intro n out v hout _
    refine ⟨unfilterByte_residual (by omega), ?_⟩
    simp only [byteCoder, List.length_append, List.length_singleton]
    omega
  rw [unfilterScanline, unfilterFrom_eq_decodeAll, filter_eq_encodeAll, hdecode]
  rfl

/-- A file's rows as codes, with the state the number and the bytes of the row before. -/
def rowCoder (filters : ℕ → FilterType) :
    Coder (ℕ × List UInt8) (List UInt8) (List UInt8) PngError where
  encode s row := (filters s.1).code :: (filters s.1).filter s.2 row
  decode s code := do
    let filterType ← item code 0
    unfilterScanline filterType.toNat (code.drop 1) s.2 4
  next s row := (s.1 + 1, row)

theorem rowCoder_decode_encode {filters : ℕ → FilterType} {s : ℕ × List UInt8}
    {row : List UInt8} (h : row.length ≤ s.2.length) :
    (rowCoder filters).decode s ((rowCoder filters).encode s row) = .ok row :=
  unfilterScanline_filter h

theorem readRows_flatten (filters : ℕ → FilterType) (y : ℕ) (prev : List UInt8) {stride : ℕ}
    {codes : List (List UInt8)} (h : ∀ code ∈ codes, code.length = stride + 1) :
    readRows stride codes.length prev codes.flatten =
      (rowCoder filters).decodeAll (y, prev) codes := by
  induction codes generalizing y prev with
  | nil => rfl
  | cons code codes ih =>
    obtain ⟨hcode, hrest⟩ := List.forall_mem_cons.mp h
    cases code with
    | nil => simp at hcode
    | cons filterType scanline =>
      have hlength : scanline.length = stride := by simpa using hcode
      have htake : (scanline ++ codes.flatten).take stride = scanline :=
        List.take_left' hlength
      have hdrop : (scanline ++ codes.flatten).drop stride = codes.flatten :=
        List.drop_left' hlength
      rw [List.length_cons, readRows, List.flatten_cons, List.cons_append, List.drop_one,
        List.tail_cons, htake, hdrop, Coder.decodeAll]
      change (unfilterScanline filterType.toNat scanline prev 4).bind _ =
        (unfilterScanline filterType.toNat scanline prev 4).bind _
      cases unfilterScanline filterType.toNat scanline prev 4 with
      | error e => rfl
      | ok row =>
        change (readRows stride codes.length row codes.flatten).bind _ = _
        rw [ih (y + 1) row hrest]
        rfl

namespace Picture

variable {p : Picture} {filters : ℕ → FilterType} {y : ℕ}

theorem length_row (h : y < p.height) : (p.row y).length = p.stride := by
  have hend : (y + 1) * p.stride ≤ p.pixels.length := by
    rw [p.length_pixels]
    exact Nat.mul_le_mul_right _ h
  rw [Nat.succ_mul] at hend
  rw [row, List.length_take, List.length_drop]
  omega

theorem flatMap_row (p : Picture) : (List.range p.height).flatMap p.row = p.pixels := by
  have hrows : ∀ n, (List.range n).flatMap p.row = p.pixels.take (n * p.stride) := by
    intro n
    induction n with
    | zero => simp
    | succ n ih =>
      rw [List.range_succ, List.flatMap_append, ih, Nat.succ_mul, List.take_add]
      simp [row]
  rw [hrows]
  exact List.take_of_length_le p.length_pixels.le

theorem encodeAll_rows (k n : ℕ) :
    (rowCoder filters).encodeAll (k, p.prior k) ((List.range' k n).map p.row) =
      (List.range' k n).map (p.filteredRow filters) := by
  induction n generalizing k with
  | zero => rfl
  | succ n ih =>
    rw [List.range'_succ, List.map_cons, List.map_cons, Coder.encodeAll_cons, ← ih]
    rfl

theorem length_filteredRow (h : y < p.height) :
    (p.filteredRow filters y).length = p.stride + 1 := by
  simp [filteredRow, FilterType.filter, length_row h]

theorem length_filtered : (p.filtered filters).length = p.height * (p.stride + 1) := by
  have hlengths : (List.range p.height).map (fun y => (p.filteredRow filters y).length) =
      (List.range p.height).map fun _ => p.stride + 1 :=
    List.map_congr_left fun y hy => length_filteredRow (List.mem_range.mp hy)
  rw [filtered, List.length_flatMap, hlengths]
  simp

theorem filtered_eq_flatten : p.filtered filters =
    ((rowCoder filters).encodeAll (0, p.prior 0) ((List.range p.height).map p.row)).flatten := by
  rw [List.range_eq_range', encodeAll_rows, ← List.range_eq_range']
  rfl

theorem readRows_filtered :
    readRows p.stride p.height (p.prior 0) (p.filtered filters) =
      .ok ((List.range p.height).map p.row) := by
  have hlength : ∀ code ∈ (rowCoder filters).encodeAll (0, p.prior 0)
      ((List.range p.height).map p.row), code.length = p.stride + 1 := by
    intro code hcode
    obtain ⟨s, row, hrow, rfl⟩ := Coder.mem_encodeAll hcode
    obtain ⟨y, hy, rfl⟩ := List.mem_map.mp hrow
    simp [rowCoder, FilterType.filter, length_row (List.mem_range.mp hy)]
  have hread := readRows_flatten filters 0 (p.prior 0) hlength
  rw [Coder.length_encodeAll, List.length_map, List.length_range, ← filtered_eq_flatten] at hread
  rw [hread]
  refine Coder.decodeAll_encodeAll (I := fun _ s => s.2.length = p.stride)
    (P := fun row => row.length = p.stride) ?_ List.length_replicate ?_
  · intro n s row hs hrow
    exact ⟨rowCoder_decode_encode (hrow.trans hs.symm).le, hrow⟩
  · intro row hrow
    obtain ⟨y, hy, rfl⟩ := List.mem_map.mp hrow
    exact length_row (List.mem_range.mp hy)

/-- What the filters encode, the reader decodes. -/
theorem readPixels_filtered (path : String) (p : Picture) (filters : ℕ → FilterType) :
    readPixels path p.width p.height (p.filtered filters) = .ok p.toRgbaImage := by
  have hlength : ¬ (p.filtered filters).length ≠ p.height * (p.width * 4 + 1) := by
    rw [length_filtered]
    exact not_not.mpr rfl
  rw [readPixels, if_neg hlength]
  refine bind_eq_ok.mpr ⟨_, readRows_filtered, ?_⟩
  rw [← List.flatMap_def, flatMap_row]

end Picture

end Hologotchi.Png
