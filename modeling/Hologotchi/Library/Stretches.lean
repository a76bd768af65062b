import Mathlib.Data.List.DropRight

/-! The stretch of entries at the end of a list that all have a property, and where it starts. -/
namespace Hologotchi.Library.Stretches

variable {α : Type*} {p : α → Bool} {x : α} {l stretch : List α}

/-- The first entry of the longest such stretch. -/
def start (p : α → Bool) (l : List α) : Option α := (l.rtakeWhile p).head?

@[simp] theorem start_nil : start p ([] : List α) = none := rfl

theorem start_append (h : p x) : start p (l ++ [x]) = (start p l).or (some x) := by
  rw [start, List.rtakeWhile_concat_pos _ _ _ h, List.head?_append]
  rfl

theorem start_append_of_not (h : ¬ p x) : start p (l ++ [x]) = none := by
  rw [start, List.rtakeWhile_concat_neg _ _ _ h]
  rfl

theorem mem_of_start (h : start p l = some x) : x ∈ l :=
  (List.rtakeWhile_suffix p l).subset (List.mem_of_head? h)

/-- The list ends in a stretch exactly when its last entry has the property. -/
theorem isSome_start : (start p l).isSome ↔ ∃ x ∈ l.getLast?, p x := by
  induction l using List.reverseRecOn with
  | nil => simp
  | append_singleton l x ih =>
    by_cases hx : p x
    · rw [start_append hx]
      simp [hx]
    · rw [start_append_of_not hx]
      simp [hx]

/-- A stretch that goes on keeps its start, and one that begins starts at the new entry. -/
theorem start_append_cases (h : p x) :
    (∃ y, start p l = some y ∧ start p (l ++ [x]) = some y) ∨
      ((∀ y ∈ l.getLast?, ¬ p y) ∧ start p (l ++ [x]) = some x) := by
  rw [start_append h]
  cases hstart : start p l with
  | none =>
    refine .inr ⟨fun y hy hp => ?_, rfl⟩
    have hsome : (start p l).isSome := isSome_start.mpr ⟨y, hy, hp⟩
    simp [hstart] at hsome
  | some y => exact .inl ⟨y, rfl, rfl⟩

/-- The longest stretch starts no later than any other that reaches the end. -/
theorem start_of_suffix (hall : ∀ y ∈ stretch, p y) (hx : x ∈ stretch.head?) :
    ∃ y, start p (l ++ stretch) = some y ∧ (y = x ∨ y ∈ l) := by
  have hlong : (l ++ stretch).rtakeWhile p = l.rtakeWhile p ++ stretch := by
    clear hx
    induction stretch using List.reverseRecOn with
    | nil => simp
    | append_singleton stretch y ih =>
      obtain ⟨hstretch, hlast⟩ := List.forall_mem_append.mp hall
      have hy : p y := hlast y List.mem_cons_self
      rw [← List.append_assoc, List.rtakeWhile_concat_pos _ _ _ hy, ih hstretch,
        List.append_assoc]
  rw [start, hlong, List.head?_append]
  cases hb : (l.rtakeWhile p).head? with
  | none => exact ⟨x, by simpa using hx, .inl rfl⟩
  | some y => exact ⟨y, rfl, .inr (mem_of_start hb)⟩

end Hologotchi.Library.Stretches
