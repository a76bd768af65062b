import Hologotchi.Library.Layers
import Hologotchi.Motion.Sheet

/-! Cells as surfaces: what is read back after writing, and pasting as laying one pixel on another
at one place. -/
namespace Hologotchi.Motion

open Library Sprite

variable {pixels : List UInt8} {width height x y x' y' : ℕ} {pixel : Rgba} {c : Cell}

/-- Pixels follow one another row by row. -/
theorem row_lt (hx : x < width) (h : y < y') : y * width + x < y' * width + x' := by
  have hrow : (y + 1) * width ≤ y' * width := Nat.mul_le_mul_right width h
  rw [Nat.succ_mul] at hrow
  omega

/-- Different pixels have different offsets. -/
theorem row_inj (hx : x < width) (hx' : x' < width) (h : y * width + x = y' * width + x') :
    x = x' ∧ y = y' := by
  rcases Nat.lt_trichotomy y y' with hlt | rfl | hlt
  · have hne : y * width + x < y' * width + x' := row_lt hx hlt
    omega
  · exact ⟨Nat.add_left_cancel h, rfl⟩
  · have hne : y' * width + x' < y * width + x := row_lt hx' hlt
    omega

/-- A pixel is what its four bytes are. -/
theorem pixelAt_eq (hr : pixels[(y * width + x) * 4]? = some pixel.r)
    (hg : pixels[(y * width + x) * 4 + 1]? = some pixel.g)
    (hb : pixels[(y * width + x) * 4 + 2]? = some pixel.b)
    (ha : pixels[(y * width + x) * 4 + 3]? = some pixel.a) : pixelAt pixels width x y = pixel := by
  simp [pixelAt, List.getD_eq_getElem?_getD, hr, hg, hb, ha]

theorem pixelAt_congr {others : List UInt8}
    (h : ∀ i < 4, pixels[(y * width + x) * 4 + i]? = others[(y * width + x) * 4 + i]?) :
    pixelAt pixels width x y = pixelAt others width x y := by
  have h0 := h 0 (by decide)
  have h1 := h 1 (by decide)
  have h2 := h 2 (by decide)
  have h3 := h 3 (by decide)
  rw [Nat.add_zero] at h0
  simp only [pixelAt, List.getD_eq_getElem?_getD, h0, h1, h2, h3]

theorem pixelAt_setSheet_self (hsize : pixels.length = height * width * 4) (hx : x < width)
    (hy : y < height) : pixelAt (setSheet pixels width x y pixel) width x y = pixel := by
  have hfits := row_fits hx hy
  have hoffset : (y * width + x) * 4 ≤ pixels.length := by omega
  have hinside (i : ℕ) (hi : i < 4) : (setSheet pixels width x y pixel)[(y * width + x) * 4 + i]? =
      [pixel.r, pixel.g, pixel.b, pixel.a][i]? := getElem?_splice_inside hoffset hi
  exact pixelAt_eq (hinside 0 (by decide)) (hinside 1 (by decide)) (hinside 2 (by decide))
    (hinside 3 (by decide))

theorem pixelAt_setSheet_of_ne (hsize : pixels.length = height * width * 4) (hx : x < width)
    (hy : y < height) (hx' : x' < width) (hne : ¬ (x = x' ∧ y = y')) :
    pixelAt (setSheet pixels width x y pixel) width x' y' = pixelAt pixels width x' y' := by
  have hfits := row_fits hx hy
  have hoffset : (y * width + x) * 4 ≤ pixels.length := by omega
  have hrow : y * width + x ≠ y' * width + x' := fun h => hne (row_inj hx hx' h)
  apply pixelAt_congr
  intro i hi
  rcases Nat.lt_or_gt_of_ne hrow with hlt | hlt
  · apply getElem?_splice_after hoffset
    simp only [List.length_cons, List.length_nil]
    omega
  · apply getElem?_splice_before hoffset
    omega

theorem pixelAt_setSheet (hsize : pixels.length = height * width * 4) (hx : x < width)
    (hy : y < height) (hx' : x' < width) :
    pixelAt (setSheet pixels width x y pixel) width x' y' =
      if x = x' ∧ y = y' then pixel else pixelAt pixels width x' y' := by
  split
  · rename_i h
    obtain ⟨rfl, rfl⟩ := h
    exact pixelAt_setSheet_self hsize hx hy
  · exact pixelAt_setSheet_of_ne hsize hx hy hx' ‹_›

/-- An empty buffer is transparent. -/
theorem pixelAt_replicate (n width x y : ℕ) :
    pixelAt (List.replicate n 0) width x y = ⟨0, 0, 0, 0⟩ := by
  have hzero (i : ℕ) : (List.replicate n (0 : UInt8)).getD i 0 = 0 := by
    rw [List.getD_eq_getElem?_getD, List.getElem?_replicate]
    split <;> rfl
  simp only [pixelAt, hzero]

/-- A position inside a cell. -/
abbrev Place := Fin cell × Fin cell

def Cell.look (c : Cell) (p : Place) : Rgba := c.get p.1 p.2

def Cell.put (c : Cell) (p : Place) (pixel : Rgba) : Cell := c.set (p.1 : ℕ) (p.2 : ℕ) pixel

/-- The place at coordinates that may lie outside of the cell. -/
def place? (x y : ℤ) : Option Place :=
  if h : InCell x y then some (⟨x.toNat, h.toNat_lt.1⟩, ⟨y.toNat, h.toNat_lt.2⟩) else none

theorem place?_eq_some {x y : ℤ} {p : Place} :
    place? x y = some p ↔ x = (p.1 : ℕ) ∧ y = (p.2 : ℕ) := by
  obtain ⟨⟨i, hi⟩, j, hj⟩ := p
  by_cases h : InCell x y
  · rw [place?, dif_pos h]
    unfold InCell at h
    simp only [Option.some.injEq, Prod.mk.injEq, Fin.mk.injEq]
    omega
  · rw [place?, dif_neg h]
    unfold InCell at h
    simp only [reduceCtorEq, false_iff]
    omega

theorem look_put : Layers.Lawful Cell.look Cell.put := by
  intro c p pixel q
  obtain ⟨x, y⟩ := p
  obtain ⟨x', y'⟩ := q
  have hin : InCell (x : ℕ) (y : ℕ) := by
    unfold InCell
    omega
  rw [Cell.look, Cell.put, Cell.set, dif_pos hin]
  exact (pixelAt_setSheet c.size_eq x.isLt y.isLt x'.isLt).trans
    (by simp only [Prod.mk.injEq, Fin.ext_iff]; rfl)

/-- Pixels that are written once each, from what their position tells. -/
theorem look_foldl_set {ps : List (ℕ × ℕ)} (pixel : ℕ → ℕ → Rgba)
    (hps : ∀ p ∈ ps, p.1 < cell ∧ p.2 < cell) (q : Place) :
    (ps.foldl (fun out p => out.set p.1 p.2 (pixel p.1 p.2)) c).look q =
      if ((q.1 : ℕ), (q.2 : ℕ)) ∈ ps then pixel q.1 q.2 else c.look q := by
  induction ps generalizing c with
  | nil => simp
  | cons p ps ih =>
    obtain ⟨⟨hx, hy⟩, hrest⟩ := List.forall_mem_cons.mp hps
    have hput : (c.set p.1 p.2 (pixel p.1 p.2)).look q =
        if (⟨p.1, hx⟩, ⟨p.2, hy⟩) = q then pixel p.1 p.2 else c.look q :=
      look_put c (⟨p.1, hx⟩, ⟨p.2, hy⟩) _ q
    rw [List.foldl_cons, ih hrest, hput]
    by_cases hlater : ((q.1 : ℕ), (q.2 : ℕ)) ∈ ps
    · rw [if_pos hlater, if_pos (List.mem_cons_of_mem _ hlater)]
    · rw [if_neg hlater]
      by_cases hq : (⟨p.1, hx⟩, ⟨p.2, hy⟩) = q
      · subst hq
        simp
      · have hne : ((q.1 : ℕ), (q.2 : ℕ)) ≠ p := by
          rintro rfl
          exact hq rfl
        rw [if_neg hq, if_neg (by simp [hne, hlater])]

theorem alphaPaste_outside {x y : ℤ} (h : place? x y = none) : c.alphaPaste x y pixel = .ok c := by
  unfold place? at h
  split at h
  · contradiction
  · rw [Cell.alphaPaste, if_pos ‹_›]

theorem alphaPaste_inside {x y : ℤ} {p : Place} (h : place? x y = some p) :
    c.alphaPaste x y pixel = (do .ok (c.put p (← blend pixel (c.look p)))) := by
  unfold place? at h
  split at h
  · rename_i hin
    cases h
    have hx : ((x.toNat : ℕ) : ℤ) = x := Int.toNat_of_nonneg hin.1.1
    have hy : ((y.toNat : ℕ) : ℤ) = y := Int.toNat_of_nonneg hin.2.1
    rw [Cell.alphaPaste, if_neg (not_not_intro hin)]
    simp only [Cell.put, hx, hy]
    rfl
  · contradiction

/-- The visible pixels with the places they are moved to, in the order they are pasted in. -/
def strokes (pixel : ℕ → ℕ → Rgba) (target : ℕ → ℕ → ℤ × ℤ) (ps : List (ℕ × ℕ)) :
    List (Place × Rgba) :=
  ps.filterMap fun p =>
    if (pixel p.1 p.2).a = 0 then none
    else (place? (target p.1 p.2).1 (target p.1 p.2).2).map (·, pixel p.1 p.2)

/-- The loops of `_shift` and `_walk_phase` paint. -/
theorem pasteVisible_eq (c out : Cell) (target : ℕ → ℕ → ℤ × ℤ) (ps : List (ℕ × ℕ)) :
    pasteVisible c target out ps =
      Layers.paint Cell.look Cell.put blend out (strokes c.get target ps) := by
  induction ps generalizing out with
  | nil => rfl
  | cons p ps ih =>
    obtain ⟨x, y⟩ := p
    by_cases hvisible : (c.get x y).a = 0
    · simp only [pasteVisible, strokes, List.filterMap_cons, hvisible, if_true]
      exact ih out
    · cases hplace : place? (target x y).1 (target x y).2 with
      | none =>
        simp only [pasteVisible, strokes, List.filterMap_cons, hvisible, if_false, hplace,
          alphaPaste_outside hplace]
        exact ih out
      | some q =>
        simp only [pasteVisible, strokes, List.filterMap_cons, hvisible, if_false, hplace,
          alphaPaste_inside hplace, Layers.paint, Option.map_some]
        cases blend (c.get x y) (out.look q) with
        | error e => rfl
        | ok r => exact ih (out.put q r)

end Hologotchi.Motion
