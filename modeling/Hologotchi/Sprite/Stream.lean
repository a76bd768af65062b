import Hologotchi.Sprite.Encoder
import Hologotchi.Sprite.Decoder

/-! What the firmware draws from runs. -/
namespace Hologotchi.Sprite

open Library RunLength

variable {checks : Bool} {palette : Palette} {s s' : SpritePixels} {ps qs : List Pixel} {n v : ℕ}
  {rest : List UInt8}

namespace SpritePixels

theorem draws_congr (h : s.next checks palette = s'.next checks palette)
    (hs : Draws checks palette s' ps) :
    Draws checks palette s ps := by
  cases hs with
  | done hs => exact .done (h.trans hs)
  | pixel hs hrest => exact .pixel (h.trans hs) hrest

theorem draws_unique (hp : Draws checks palette s ps) (hq : Draws checks palette s qs) :
    ps = qs := by
  induction hp generalizing qs with
  | done hp =>
    cases hq with
    | done _ => rfl
    | pixel hq _ => simp [hp] at hq
  | pixel hp _ ih =>
    cases hq with
    | done hq => simp [hp] at hq
    | pixel hq hrest =>
      rw [hp] at hq
      obtain ⟨hpixel, rfl⟩ := Prod.mk.inj (Except.ok.inj hq)
      rw [Option.some.inj hpixel, ih hrest]

theorem next_end (h : s.total ≤ s.pixelIndex) : s.next checks palette = .ok (none, s) := by
  unfold next nextFrom
  rw [if_pos h]

theorem next_solid (hfits : s.Fits) (h : s.pixelIndex < s.total) (hleft : 0 < s.solidLeft) :
    s.next checks palette = .ok (some s.exactPixel,
      { s with pixelIndex := s.pixelIndex + 1, solidLeft := s.solidLeft - 1 }) := by
  unfold next nextFrom
  rw [if_neg (Nat.not_le.mpr h), if_pos hleft, pixel_ok hfits h]
  rfl

theorem command_transparent : ∀ m < 128, UInt8.ofNat m &&& 0x80 = 0 ∧
    (UInt8.ofNat m &&& 0x7f).toNat = m := by decide

theorem command_solid : ∀ m < 128, UInt8.ofNat (solidRunFlag ||| m) &&& 0x80 ≠ 0 ∧
    (UInt8.ofNat (solidRunFlag ||| m) &&& 0x7f).toNat = m ∧ solidRunFlag ||| m < 256 := by decide

/-- A transparent run moves the cursor. -/
theorem next_skipRun (h : s.pixelIndex < s.total) (hleft : s.solidLeft = 0)
    (hn : 1 ≤ n ∧ n ≤ maxRunLen) (hunread : s.unread = UInt8.ofNat (n - 1) :: rest) :
    s.next checks palette =
      { s with unread := rest, pixelIndex := s.pixelIndex + n }.next checks palette := by
  obtain ⟨hflag, hlen⟩ := command_transparent (n - 1) (by rw [maxRunLen] at hn; omega)
  have hrun : (UInt8.ofNat (n - 1) &&& 0x7f).toNat + 1 = n := by omega
  rw [next, hunread, nextFrom, if_neg (Nat.not_le.mpr h), if_neg (by omega)]
  simp only [hflag, if_true, hrun]
  rfl

/-- A solid run sets the colour and the count. -/
theorem next_solidRun (h : s.pixelIndex < s.total) (hleft : s.solidLeft = 0)
    (hn : 1 ≤ n ∧ n ≤ maxRunLen) (hv : v < 256)
    (hunread : s.unread = UInt8.ofNat (solidRunFlag ||| (n - 1)) :: UInt8.ofNat v :: rest) :
    s.next checks palette = { s with
      unread := rest
      solidColor := rgb565Color (palette.getD v 0)
      solidLeft := n }.next checks palette := by
  obtain ⟨hflag, hlen, -⟩ := command_solid (n - 1) (by rw [maxRunLen] at hn; omega)
  have hrun : (UInt8.ofNat (solidRunFlag ||| (n - 1)) &&& 0x7f).toNat + 1 = n := by omega
  have hindex : (UInt8.ofNat v).toNat = v := by
    rw [UInt8.toNat_ofNat']
    omega
  rw [next, hunread, nextFrom, if_neg (Nat.not_le.mpr h), if_neg (by omega)]
  simp only [hflag, if_false, hrun, hindex]
  rfl

end SpritePixels

/-- A pixel that is moved. -/
def Pixel.shift (dx dy : ℤ) (p : Pixel) : Pixel := { p with x := dx + p.x, y := dy + p.y }

/-- The width of a box and where it is drawn. -/
structure Frame where
  width : ℕ
  originX : ℤ
  originY : ℤ

def SpritePixels.frame (s : SpritePixels) : Frame := ⟨s.width, s.originX, s.originY⟩

namespace Frame

variable {f : Frame}

def pixelAt (f : Frame) (palette : Palette) (k v : ℕ) : Pixel where
  x := f.originX + (k % f.width : ℕ)
  y := f.originY + (k / f.width : ℕ)
  color := rgb565Color (palette.getD v 0)

/-- The pixels of some indices, of which the first is that of position `k`. -/
def pixelsFrom (f : Frame) (palette : Palette) (k : ℕ) : List (Option ℕ) → List Pixel
  | [] => []
  | none :: vs => f.pixelsFrom palette (k + 1) vs
  | some v :: vs => f.pixelAt palette k v :: f.pixelsFrom palette (k + 1) vs

theorem pixelsFrom_append (f : Frame) (palette : Palette) (k : ℕ) (vs ws : List (Option ℕ)) :
    f.pixelsFrom palette k (vs ++ ws) =
      f.pixelsFrom palette k vs ++ f.pixelsFrom palette (k + vs.length) ws := by
  induction vs generalizing k with
  | nil => rfl
  | cons v vs ih =>
    have hlen : k + 1 + vs.length = k + (v :: vs).length := by
      simp only [List.length_cons]
      omega
    cases v with
    | none => simp only [List.cons_append, pixelsFrom, ih, hlen]
    | some v => simp only [List.cons_append, pixelsFrom, ih, hlen]

theorem pixelsFrom_none (f : Frame) (palette : Palette) (k n : ℕ) :
    f.pixelsFrom palette k (List.replicate n none) = [] := by
  induction n generalizing k with
  | zero => rfl
  | succ n ih => exact ih (k + 1)

theorem pixelsFrom_map (f : Frame) (palette : Palette) (k n : ℕ) (g : ℕ → Option ℕ) :
    f.pixelsFrom palette k ((List.range n).map g) =
      (List.range n).filterMap fun i => (g i).map (f.pixelAt palette (k + i)) := by
  induction n with
  | zero => rfl
  | succ n ih =>
    rw [List.range_succ, List.map_append, pixelsFrom_append, ih, List.filterMap_append]
    congr 1
    cases hg : g n <;> simp [hg, pixelsFrom]

/-- A box that is moved has its pixels moved as they are. -/
theorem pixelsFrom_shift (f : Frame) (dx dy : ℤ) (palette : Palette) (k : ℕ)
    (vs : List (Option ℕ)) :
    Frame.pixelsFrom ⟨f.width, dx + f.originX, dy + f.originY⟩ palette k vs =
      (f.pixelsFrom palette k vs).map (Pixel.shift dx dy) := by
  induction vs generalizing k with
  | nil => rfl
  | cons v vs ih =>
    cases v with
    | none => exact ih (k + 1)
    | some v => simp only [pixelsFrom, List.map_cons, ih, pixelAt, Pixel.shift, Int.add_assoc]

/-- Rows of the width of the box are drawn below each other. -/
theorem pixelsFrom_rows (f : Frame) (palette : Palette) (height : ℕ)
    (g : ℕ → ℕ → Option ℕ) :
    f.pixelsFrom palette 0 ((List.range height).flatMap fun y => (List.range f.width).map (g y)) =
      (List.range height).flatMap fun y => (List.range f.width).filterMap fun x =>
        (g y x).map fun v => ⟨f.originX + x, f.originY + y, rgb565Color (palette.getD v 0)⟩ := by
  induction height with
  | zero => rfl
  | succ h ih =>
    have hlen : ((List.range h).flatMap fun y => (List.range f.width).map (g y)).length =
        h * f.width := by
      simp [List.length_flatMap, List.map_const']
    rw [List.range_succ, List.flatMap_append, pixelsFrom_append, ih, List.flatMap_append, hlen,
      Nat.zero_add, List.flatMap_singleton, List.flatMap_singleton, pixelsFrom_map]
    congr 1
    apply List.filterMap_congr
    intro x hx
    have hlt : x < f.width := List.mem_range.mp hx
    have hmod : (h * f.width + x) % f.width = x := by
      rw [Nat.add_comm, Nat.add_mul_mod_self_right, Nat.mod_eq_of_lt hlt]
    have hdiv : (h * f.width + x) / f.width = h := by
      rw [Nat.add_comm, Nat.add_mul_div_right _ _ (by omega), Nat.div_eq_of_lt hlt, Nat.zero_add]
    have hpixel : f.pixelAt palette (h * f.width + x) = fun v =>
        ⟨f.originX + x, f.originY + h, rgb565Color (palette.getD v 0)⟩ := by
      funext v
      simp only [pixelAt, hmod, hdiv]
    rw [hpixel]

end Frame

namespace SpritePixels

/-- A solid run draws its pixels, and then what follows is drawn. -/
theorem draws_solidRun (hfits : s.Fits) (hcolor : s.solidColor = rgb565Color (palette.getD v 0))
    (htotal : s.pixelIndex + s.solidLeft ≤ s.total)
    (hrest : Draws checks palette { s with
      pixelIndex := s.pixelIndex + s.solidLeft
      solidLeft := 0 } ps) :
    Draws checks palette s
      (s.frame.pixelsFrom palette s.pixelIndex (List.replicate s.solidLeft (some v)) ++ ps) := by
  obtain ⟨sprite, ox, oy, unread, k, left, color⟩ := s
  induction left generalizing k with
  | zero => exact hrest
  | succ left ih =>
    have hpixel : (SpritePixels.mk sprite ox oy unread k (left + 1) color).exactPixel =
        (SpritePixels.mk sprite ox oy unread k (left + 1) color).frame.pixelAt palette k v := by
      simp only at hcolor
      rw [hcolor]
      rfl
    have hlt : k < (SpritePixels.mk sprite ox oy unread k (left + 1) color).total := by
      simp only at htotal
      omega
    have hsum : k + (left + 1) = k + 1 + left := by omega
    simp only [hsum] at htotal hrest
    have hmore := ih (k + 1) { hfits with } hcolor htotal hrest
    have hstep : (SpritePixels.mk sprite ox oy unread k (left + 1) color).next checks palette =
        .ok (some ((SpritePixels.mk sprite ox oy unread k (left + 1) color).exactPixel),
          SpritePixels.mk sprite ox oy unread (k + 1) left color) :=
      next_solid hfits hlt (Nat.succ_pos left)
    rw [hpixel] at hstep
    exact .pixel hstep hmore

/-- The runs of a list, encoded, draw the list. -/
theorem draws_runs {rs : List (Option ℕ × ℕ)} (hfits : s.Fits)
    (hbounds : ∀ r ∈ rs, 1 ≤ r.2 ∧ r.2 ≤ maxRunLen)
    (hvalues : ∀ r ∈ rs, ∀ v ∈ r.1, v < 256) (hleft : s.solidLeft = 0)
    (hunread : s.unread = (rs.flatMap encodeRun).map UInt8.ofNat)
    (htotal : s.pixelIndex + (expand rs).length = s.total) :
    Draws checks palette s (s.frame.pixelsFrom palette s.pixelIndex (expand rs)) := by
  induction rs generalizing s with
  | nil =>
    have hend : s.total ≤ s.pixelIndex := by
      rw [← htotal]
      exact Nat.le_refl _
    exact .done (next_end hend)
  | cons r rs ih =>
    obtain ⟨hr, hrs⟩ := List.forall_mem_cons.mp hbounds
    obtain ⟨hv, hvs⟩ := List.forall_mem_cons.mp hvalues
    rw [expand_cons, List.length_append, List.length_replicate] at htotal
    have hlt : s.pixelIndex < s.total := by omega
    rw [expand_cons, Frame.pixelsFrom_append, List.length_replicate]
    obtain ⟨value, n⟩ := r
    let rest := (rs.flatMap encodeRun).map UInt8.ofNat
    have hafter : s.pixelIndex + n + (expand rs).length = s.total := by
      simp only at htotal
      omega
    cases value with
    | none =>
      have hnext : s.next checks palette =
          { s with unread := rest, pixelIndex := s.pixelIndex + n }.next checks palette :=
        next_skipRun hlt hleft hr hunread
      rw [Frame.pixelsFrom_none, List.nil_append]
      exact draws_congr hnext (ih { hfits with } hrs hvs hleft rfl hafter)
    | some v =>
      have hnext : s.next checks palette = { s with
          unread := rest
          solidColor := rgb565Color (palette.getD v 0)
          solidLeft := n }.next checks palette :=
        next_solidRun hlt hleft hr (hv v rfl) hunread
      have hmoved : Fits { s with
          unread := rest
          solidColor := rgb565Color (palette.getD v 0)
          pixelIndex := s.pixelIndex + n
          solidLeft := 0 } := { hfits with }
      have hmore : Draws checks palette { s with
          unread := rest
          solidColor := rgb565Color (palette.getD v 0)
          pixelIndex := s.pixelIndex + n
          solidLeft := 0 } (s.frame.pixelsFrom palette (s.pixelIndex + n) (expand rs)) :=
        ih hmoved hrs hvs rfl rfl hafter
      have hroom : s.pixelIndex + n ≤ s.total := by omega
      refine draws_congr hnext ?_
      exact draws_solidRun { hfits with } rfl hroom hmore

end SpritePixels

end Hologotchi.Sprite
