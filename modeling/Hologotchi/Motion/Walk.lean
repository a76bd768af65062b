import Hologotchi.Motion.Compositing
import Mathlib.Data.List.Nodup

/-! When the motion sheet is derived without an error: a shift never raises, and a walk phase
raises exactly where the moved legs come to lie on what the composite cannot hold. -/
namespace Hologotchi.Motion

open Library Library.Layers Library.Fallible Sprite

variable {c : Cell} {pixel : ℕ → ℕ → Rgba} {target : ℕ → ℕ → ℤ × ℤ} {ps : List (ℕ × ℕ)}
  {q : Place} {top : Rgba}

theorem mem_strokes : (q, top) ∈ strokes pixel target ps ↔ ∃ x y, (x, y) ∈ ps ∧
    (pixel x y).a ≠ 0 ∧ place? (target x y).1 (target x y).2 = some q ∧ pixel x y = top := by
  simp only [strokes, List.mem_filterMap, Prod.exists]
  constructor
  · rintro ⟨x, y, hmem, h⟩
    split at h
    · contradiction
    · obtain ⟨q', hplace, heq⟩ := Option.map_eq_some_iff.mp h
      cases heq
      exact ⟨x, y, hmem, ‹_›, hplace, rfl⟩
  · rintro ⟨x, y, hmem, hvisible, hplace, rfl⟩
    exact ⟨x, y, hmem, by simp [hvisible, hplace]⟩

/-- Only visible pixels are moved. -/
theorem visible_of_mem_layersAt (h : top ∈ layersAt q (strokes pixel target ps)) : top.a ≠ 0 := by
  obtain ⟨x, y, -, hvisible, -, rfl⟩ := mem_strokes.mp (mem_of_mem_layersAt h)
  exact hvisible

/-- The loops raise no error when everything that comes to lie on one another is composable. -/
theorem pasteVisible_isOk_iff (c out : Cell) (target : ℕ → ℕ → ℤ × ℤ) (ps : List (ℕ × ℕ)) :
    (pasteVisible c target out ps).isOk = true ↔
      ∀ q, Composable (out.look q) (layersAt q (strokes c.get target ps)) := by
  rw [pasteVisible_eq, paint_isOk_iff look_put]
  exact forall_congr' fun q => stack_isOk_iff fun top => visible_of_mem_layersAt

theorem positions_nodup (width height : ℕ) : (positions width height).Nodup := by
  refine List.nodup_flatMap.mpr ⟨?_, ?_⟩
  · intro y _
    exact List.nodup_range.map fun x x' h => congrArg Prod.fst h
  · refine List.nodup_range.imp ?_
    intro y y' hne p hp hp'
    obtain ⟨x, -, rfl⟩ := List.mem_map.mp hp
    obtain ⟨x', -, h⟩ := List.mem_map.mp hp'
    exact hne (congrArg Prod.snd h).symm

theorem look_blank (q : Place) : Cell.blank.look q = ⟨0, 0, 0, 0⟩ :=
  pixelAt_replicate _ _ _ _

/-- A shift moves different pixels to different places. -/
theorem strokes_shift_nodup (pixel : ℕ → ℕ → Rgba) (dx dy : ℤ) (hps : ps.Nodup) :
    ((strokes pixel (fun x y => (x + dx, y + dy)) ps).map Prod.fst).Nodup := by
  rw [strokes, List.map_filterMap]
  refine hps.filterMap ?_
  intro p p' q hp hp'
  have hplace (p : ℕ × ℕ) (h : q ∈ Option.map Prod.fst (if (pixel p.1 p.2).a = 0 then none
      else (place? (p.1 + dx) (p.2 + dy)).map (·, pixel p.1 p.2))) :
      place? (p.1 + dx) (p.2 + dy) = some q := by
    split at h
    · contradiction
    · simpa using h
  have hx := place?_eq_some.mp (hplace p hp)
  have hx' := place?_eq_some.mp (hplace p' hp')
  ext <;> omega

/-- A shift never raises an error: nothing comes to lie on anything visible. -/
theorem shift_isOk (c : Cell) (dx dy : ℤ) : (shift c dx dy).isOk = true := by
  rw [shift, pasteVisible_isOk_iff]
  intro q
  rw [look_blank]
  cases hlayers : layersAt q
      (strokes c.get (fun x y => (x + dx, y + dy)) (positions cell cell)) with
  | nil => trivial
  | cons top above =>
    have hmem : top ∈ layersAt q (strokes c.get (fun x y => (x + dx, y + dy))
        (positions cell cell)) := by simp [hlayers]
    have hvisible := visible_of_mem_layersAt hmem
    have halone := layersAt_of_nodup (strokes_shift_nodup c.get dx dy (positions_nodup cell cell))
      (mem_of_mem_layersAt hmem)
    rw [halone] at hlayers
    obtain ⟨-, rfl⟩ := List.cons.inj hlayers
    exact ⟨not_overflows_of_kept hvisible (kept_of_transparent rfl), trivial⟩

variable {l : Legs} {x y : ℕ} {facingRight : Bool} {phase : ℤ}

theorem mem_box : (x, y) ∈ l.box ↔ (l.xMin ≤ x ∧ x ≤ l.xMax) ∧ yMin ≤ y ∧ y < cell := by
  simp only [Legs.box, List.mem_flatMap, List.mem_range'_1, List.mem_map, Prod.mk.injEq]
  constructor
  · rintro ⟨y', hy, x', hx, rfl, rfl⟩
    have hmin : yMin ≤ cell := by decide
    omega
  · intro h
    exact ⟨y, by omega, x, by omega, rfl, rfl⟩

theorem box_inside (facingRight : Bool) :
    ∀ p ∈ (legs facingRight).box, p.1 < cell ∧ p.2 < cell := by
  intro p hp
  have hmax : (legs facingRight).xMax < cell := by
    cases facingRight <;> decide
  obtain ⟨⟨-, hx⟩, -, hy⟩ := mem_box.mp hp
  exact ⟨Nat.lt_of_le_of_lt hx hmax, hy⟩

/-- What is seen at a place while the legs are away. -/
def Legs.rest (l : Legs) (pixel : ℕ → ℕ → Rgba) (q : Place) : Rgba :=
  if (l.xMin ≤ q.1 ∧ q.1 ≤ l.xMax) ∧ yMin ≤ q.2 then ⟨0, 0, 0, 0⟩ else pixel q.1 q.2

theorem look_clear (facingRight : Bool) (c : Cell) (q : Place) :
    ((legs facingRight).clear c).look q = (legs facingRight).rest c.get q := by
  have hmem : ((q.1 : ℕ), (q.2 : ℕ)) ∈ (legs facingRight).box ↔
      ((legs facingRight).xMin ≤ q.1 ∧ q.1 ≤ (legs facingRight).xMax) ∧ yMin ≤ q.2 := by
    rw [mem_box]
    have hy := q.2.isLt
    omega
  rw [Legs.clear, look_foldl_set (fun _ _ => ⟨0, 0, 0, 0⟩) (box_inside facingRight)]
  simp only [hmem]
  rfl

/-- Nothing that is moved runs over where it comes to lie: on the rest of the cell, or on other
pixels of the legs that were moved there before it. -/
def Walkable (pixel : ℕ → ℕ → Rgba) (facingRight : Bool) (phase : ℤ) : Prop :=
  ∀ q, Composable ((legs facingRight).rest pixel q)
    (layersAt q (strokes pixel ((legs facingRight).target phase) (legs facingRight).box))

theorem walkPhase_isOk_iff (c : Cell) (facingRight : Bool) (phase : ℤ) :
    (walkPhase c facingRight phase).isOk = true ↔ Walkable c.get facingRight phase := by
  rw [walkPhase, isOk_bind_iff fun out => shift_isOk out 0 _, pasteVisible_isOk_iff]
  simp only [look_clear]
  rfl

/-- Only the pixels inside the cell matter. -/
theorem walkable_congr {other : ℕ → ℕ → Rgba}
    (h : ∀ x < cell, ∀ y < cell, pixel x y = other x y) :
    Walkable pixel facingRight phase ↔ Walkable other facingRight phase := by
  have hrest (q : Place) : (legs facingRight).rest pixel q = (legs facingRight).rest other q := by
    simp only [Legs.rest, h q.1 q.1.isLt q.2 q.2.isLt]
  have hstrokes : strokes pixel ((legs facingRight).target phase) (legs facingRight).box =
      strokes other ((legs facingRight).target phase) (legs facingRight).box := by
    refine List.filterMap_congr ?_
    intro p hp
    obtain ⟨hx, hy⟩ := box_inside facingRight p hp
    rw [h p.1 hx p.2 hy]
  simp only [Walkable, hrest, hstrokes]

end Hologotchi.Motion
