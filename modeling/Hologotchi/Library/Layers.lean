import Hologotchi.Library.Fallible
import Mathlib.Data.List.Basic

/-! Laying pieces on the places of a surface one after the other, where laying one piece on what
is already there may fail. What happens at one place depends on the pieces for that place only. -/
namespace Hologotchi.Library.Layers

open Fallible

universe u v

variable {ε : Type u} {σ α : Type v} {π : Type*} {get : σ → π → α} {set : σ → π → α → σ}
  {lay : α → α → Except ε α} {s s' : σ} {p q : π} {a b : α} {strokes : List (π × α)}

/-- Lay the pieces in order, each on what its place has by then. -/
def paint (get : σ → π → α) (set : σ → π → α → σ) (lay : α → α → Except ε α) :
    σ → List (π × α) → Except ε σ
  | s, [] => .ok s
  | s, (p, a) :: strokes => do paint get set lay (set s p (← lay a (get s p))) strokes

/-- The pieces in order, laid on one another at one place. -/
def stack (lay : α → α → Except ε α) : α → List α → Except ε α
  | b, [] => .ok b
  | b, a :: above => do stack lay (← lay a b) above

/-- The pieces for one place. -/
def layersAt [DecidableEq π] (p : π) (strokes : List (π × α)) : List α :=
  strokes.filterMap fun stroke => if stroke.1 = p then some stroke.2 else none

/-- Reading after writing. -/
def Lawful [DecidableEq π] (get : σ → π → α) (set : σ → π → α → σ) : Prop :=
  ∀ s p a q, get (set s p a) q = if p = q then a else get s q

theorem paint_cons_eq_ok : paint get set lay s ((p, a) :: strokes) = .ok s' ↔
    ∃ b, lay a (get s p) = .ok b ∧ paint get set lay (set s p b) strokes = .ok s' :=
  bind_eq_ok

theorem stack_cons_eq_ok {above : List α} {r : α} : stack lay b (a :: above) = .ok r ↔
    ∃ c, lay a b = .ok c ∧ stack lay c above = .ok r :=
  bind_eq_ok

variable [DecidableEq π]

@[simp] theorem layersAt_nil : layersAt p ([] : List (π × α)) = [] := rfl

theorem layersAt_cons_self : layersAt p ((p, a) :: strokes) = a :: layersAt p strokes := by
  simp [layersAt]

theorem layersAt_cons_of_ne (h : q ≠ p) :
    layersAt p ((q, a) :: strokes) = layersAt p strokes := by
  simp [layersAt, h]

theorem layersAt_of_notMem (h : p ∉ strokes.map Prod.fst) : layersAt p strokes = [] := by
  apply List.filterMap_eq_nil_iff.mpr
  intro stroke hstroke
  rw [if_neg]
  rintro rfl
  exact h (List.mem_map_of_mem hstroke)

theorem mem_of_mem_layersAt (h : a ∈ layersAt p strokes) : (p, a) ∈ strokes := by
  obtain ⟨⟨q, b⟩, hmem, hsome⟩ := List.mem_filterMap.mp h
  split at hsome
  · rename_i hq
    cases hsome
    exact hq ▸ hmem
  · contradiction

/-- Pieces for different places do not lie on one another. -/
theorem layersAt_of_nodup (h : (strokes.map Prod.fst).Nodup) (hmem : (p, a) ∈ strokes) :
    layersAt p strokes = [a] := by
  induction strokes with
  | nil => simp at hmem
  | cons stroke strokes ih =>
    obtain ⟨q, b⟩ := stroke
    obtain ⟨hq, hrest⟩ := List.nodup_cons.mp h
    rcases List.mem_cons.mp hmem with heq | hlater
    · cases heq
      rw [layersAt_cons_self, layersAt_of_notMem hq]
    · have hne : q ≠ p := by
        rintro rfl
        exact hq (List.mem_map.mpr ⟨_, hlater, rfl⟩)
      rw [layersAt_cons_of_ne hne]
      exact ih hrest hlater

/-- A surface that was painted shows at each place the stack of the pieces for it. -/
theorem stack_of_paint (hlaw : Lawful get set) (h : paint get set lay s strokes = .ok s')
    (q : π) : stack lay (get s q) (layersAt q strokes) = .ok (get s' q) := by
  induction strokes generalizing s with
  | nil =>
    cases h
    rfl
  | cons stroke strokes ih =>
    obtain ⟨p, a⟩ := stroke
    obtain ⟨b, hlay, hrest⟩ := paint_cons_eq_ok.mp h
    have hlater := ih hrest
    rw [hlaw] at hlater
    by_cases hpq : p = q
    · subst p
      rw [if_pos rfl] at hlater
      rw [layersAt_cons_self]
      exact stack_cons_eq_ok.mpr ⟨b, hlay, hlater⟩
    · rw [if_neg hpq] at hlater
      rwa [layersAt_cons_of_ne hpq]

/-- Painting succeeds when the stack at every place does. -/
theorem paint_of_stacks (hlaw : Lawful get set)
    (h : ∀ q, ∃ r, stack lay (get s q) (layersAt q strokes) = .ok r) :
    ∃ s', paint get set lay s strokes = .ok s' := by
  induction strokes generalizing s with
  | nil => exact ⟨s, rfl⟩
  | cons stroke strokes ih =>
    obtain ⟨p, a⟩ := stroke
    obtain ⟨r, hr⟩ := h p
    rw [layersAt_cons_self] at hr
    obtain ⟨b, hlay, hrest⟩ := stack_cons_eq_ok.mp hr
    have hnext : ∀ q, ∃ r, stack lay (get (set s p b) q) (layersAt q strokes) = .ok r := by
      intro q
      rw [hlaw]
      by_cases hpq : p = q
      · subst p
        rw [if_pos rfl]
        exact ⟨r, hrest⟩
      · obtain ⟨r', hr'⟩ := h q
        rw [layersAt_cons_of_ne hpq] at hr'
        rw [if_neg hpq]
        exact ⟨r', hr'⟩
    obtain ⟨s', hs'⟩ := ih hnext
    exact ⟨s', paint_cons_eq_ok.mpr ⟨b, hlay, hs'⟩⟩

theorem paint_isOk_iff (hlaw : Lawful get set) : (paint get set lay s strokes).isOk = true ↔
    ∀ q, (stack lay (get s q) (layersAt q strokes)).isOk = true := by
  simp only [isOk_iff_exists]
  constructor
  · rintro ⟨s', hs'⟩ q
    exact ⟨_, stack_of_paint hlaw hs' q⟩
  · exact paint_of_stacks hlaw

end Hologotchi.Library.Layers
