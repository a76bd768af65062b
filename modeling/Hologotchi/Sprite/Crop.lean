import Hologotchi.Sprite.Encoder
import Hologotchi.Sprite.Decoder
import Mathlib.Data.List.Induction

/-! The box around the visible pixels of a cell. -/
namespace Hologotchi.Sprite

/-- One pixel for each visible position, in raster order. -/
def Cell.pixels (c : Cell) (palette : Palette) (alphaThreshold : ℕ) : List Pixel :=
  (positions c.width c.height).filterMap fun p =>
    (c.index palette alphaThreshold p.1 p.2).map fun v =>
      ⟨p.1, p.2, rgb565Color (palette.getD v 0)⟩

variable {c : Cell} {palette : Palette} {alphaThreshold : ℕ}

theorem mem_positions {width height x y : ℕ} :
    (x, y) ∈ positions width height ↔ x < width ∧ y < height := by
  simp only [positions, List.mem_flatMap, List.mem_range, List.mem_map, Prod.mk.injEq]
  constructor
  · rintro ⟨y', hy, x', hx, rfl, rfl⟩
    exact ⟨hx, hy⟩
  · rintro ⟨hx, hy⟩
    exact ⟨y, hy, x, hx, rfl, rfl⟩

/-- The box after scanning some visible positions of a cell. -/
structure Encloses (width height : ℕ) (seen : List (ℕ × ℕ)) (b : Bounds) : Prop where
  inside : ∀ p ∈ seen, b.minX ≤ p.1 ∧ (p.1 : ℤ) ≤ b.maxX ∧ b.minY ≤ p.2 ∧ (p.2 : ℤ) ≤ b.maxY
  maxX_lt : b.maxX < width
  maxY_lt : b.maxY < height
  empty : seen = [] → b.maxX = -1
  count : b.visiblePixels = seen.length

theorem Encloses.add {width height x y : ℕ} {seen : List (ℕ × ℕ)} {b : Bounds}
    (h : Encloses width height seen b) (hx : x < width) (hy : y < height) :
    Encloses width height (seen ++ [(x, y)]) (b.add x y) where
  inside := by
    intro p hp
    simp only [Bounds.add]
    rcases List.mem_append.mp hp with hp | hp
    · have hin := h.inside p hp
      omega
    · obtain rfl := List.mem_singleton.mp hp
      omega
  maxX_lt := by
    have hlt := h.maxX_lt
    simp only [Bounds.add]
    omega
  maxY_lt := by
    have hlt := h.maxY_lt
    simp only [Bounds.add]
    omega
  empty := by simp
  count := by simp [Bounds.add, h.count]

theorem encloses_foldl {width height : ℕ} {seen : List (ℕ × ℕ)}
    (h : ∀ p ∈ seen, p.1 < width ∧ p.2 < height) : Encloses width height seen
      (seen.foldl (fun b p => b.add p.1 p.2) ⟨width, height, -1, -1, 0⟩) := by
  induction seen using List.reverseRecOn with
  | nil =>
    have hnone : ∀ n : ℕ, (-1 : ℤ) < n := by
      intro n
      omega
    exact ⟨by simp, hnone width, hnone height, fun _ => rfl, rfl⟩
  | append_singleton seen p ih =>
    have hbox := ih fun q hq => h q (List.mem_append_left _ hq)
    obtain ⟨hx, hy⟩ := h p (by simp)
    rw [List.foldl_append]
    exact hbox.add hx hy

def Cell.visiblePositions (c : Cell) (alphaThreshold : ℕ) : List (ℕ × ℕ) :=
  (positions c.width c.height).filter fun p => c.visible alphaThreshold p.1 p.2

theorem bounds_encloses (c : Cell) (alphaThreshold : ℕ) : Encloses c.width c.height
    (c.visiblePositions alphaThreshold) (c.bounds alphaThreshold) := by
  have hbounds : c.bounds alphaThreshold = (c.visiblePositions alphaThreshold).foldl
      (fun b p => b.add p.1 p.2) ⟨c.width, c.height, -1, -1, 0⟩ := by
    rw [Cell.visiblePositions, List.foldl_filter]
    rfl
  rw [hbounds]
  apply encloses_foldl
  intro p hp
  exact mem_positions.mp (List.mem_of_mem_filter hp)

/-- A flat map over a range only needs the part outside of which it gives nothing. -/
theorem flatMap_range_crop {β : Type*} {g : ℕ → List β} {n a m : ℕ} (hm : a + m ≤ n)
    (h : ∀ i < n, i < a ∨ a + m ≤ i → g i = []) :
    (List.range n).flatMap g = (List.range m).flatMap fun i => g (a + i) := by
  obtain ⟨k, rfl⟩ : ∃ k, n = a + (m + k) := ⟨n - (a + m), by omega⟩
  have hfront : (List.range a).flatMap g = [] :=
    List.flatMap_eq_nil_iff.mpr fun i hi =>
      have hlt := List.mem_range.mp hi
      h i (by omega) (.inl hlt)
  have hback : ((List.range k).map (m + ·)).flatMap (fun i => g (a + i)) = [] := by
    apply List.flatMap_eq_nil_iff.mpr
    intro i hi
    obtain ⟨j, hj, rfl⟩ := List.mem_map.mp hi
    have hlt := List.mem_range.mp hj
    exact h _ (by omega) (.inr (by omega))
  rw [List.range_add, List.flatMap_append, hfront, List.nil_append, List.flatMap_map,
    List.range_add, List.flatMap_append, hback, List.append_nil]

/-- The pixels of a cell are those of any box around them. -/
theorem pixels_crop {minX minY width height : ℕ} (hx : minX + width ≤ c.width)
    (hy : minY + height ≤ c.height)
    (hbox : ∀ p ∈ c.visiblePositions alphaThreshold,
      (minX ≤ p.1 ∧ p.1 < minX + width) ∧ minY ≤ p.2 ∧ p.2 < minY + height) :
    c.pixels palette alphaThreshold =
      (List.range height).flatMap fun y => (List.range width).filterMap fun x =>
        (c.index palette alphaThreshold (minX + x) (minY + y)).map fun v =>
          ⟨(minX : ℤ) + x, (minY : ℤ) + y, rgb565Color (palette.getD v 0)⟩ := by
  have hnone : ∀ x y, x < c.width → y < c.height →
      ¬ ((minX ≤ x ∧ x < minX + width) ∧ minY ≤ y ∧ y < minY + height) →
      c.index palette alphaThreshold x y = none := by
    intro x y hxw hyh hout
    by_cases hvis : c.visible alphaThreshold x y = true
    · have hmem : (x, y) ∈ c.visiblePositions alphaThreshold :=
        List.mem_filter.mpr ⟨mem_positions.mpr ⟨hxw, hyh⟩, hvis⟩
      exact absurd (hbox _ hmem) hout
    · rw [Cell.index, if_neg hvis]
  let pixel (x y : ℕ) : Option Pixel := (c.index palette alphaThreshold x y).map fun v =>
    ⟨x, y, rgb565Color (palette.getD v 0)⟩
  have hrows : c.pixels palette alphaThreshold =
      (List.range c.height).flatMap fun y => (List.range c.width).filterMap fun x => pixel x y := by
    simp only [Cell.pixels, positions, List.filterMap_flatMap, List.filterMap_map]
    rfl
  have houter : ∀ y < c.height, y < minY ∨ minY + height ≤ y →
      (List.range c.width).filterMap (fun x => pixel x y) = [] := by
    intro y hyh hout
    apply List.filterMap_eq_nil_iff.mpr
    intro x hxw
    simp only [pixel, hnone x y (List.mem_range.mp hxw) hyh (by omega), Option.map_none]
  rw [hrows, flatMap_range_crop hy houter]
  apply List.flatMap_congr
  intro y hyh
  have hinner : ∀ x < c.width, x < minX ∨ minX + width ≤ x → (pixel x (minY + y)).toList = [] := by
    intro x hxw hout
    have hylt := List.mem_range.mp hyh
    simp only [pixel, hnone x (minY + y) hxw (by omega) (by omega), Option.map_none,
      Option.toList_none]
  rw [List.filterMap_eq_flatMap_toList, flatMap_range_crop hx hinner,
    ← List.filterMap_eq_flatMap_toList]
  simp only [pixel, Int.natCast_add]

end Hologotchi.Sprite
