import Mathlib.Data.List.DropRight

/-! Trimming a list at both ends. -/
namespace Hologotchi.Library.Trim

variable {α : Type*} {p : α → Bool} {l blanks : List α}

def trim (p : α → Bool) (l : List α) : List α := (l.dropWhile p).rdropWhile p

/-- Nothing to trim at either end. -/
structure Trimmed (p : α → Bool) (l : List α) : Prop where
  first : ∀ c ∈ l.head?, p c = false
  last : ∀ c ∈ l.getLast?, p c = false

theorem Trimmed.dropWhile (h : Trimmed p l) : l.dropWhile p = l := by
  cases l with
  | nil => rfl
  | cons c l => simp [h.first c (by simp)]

theorem Trimmed.rdropWhile (h : Trimmed p l) : l.rdropWhile p = l := by
  apply List.rdropWhile_eq_self_iff.mpr
  intro hne
  simp [h.last _ (List.getLast?_eq_some_getLast hne)]

/-- Blanks after a trimmed list are trimmed off. -/
theorem Trimmed.trim_append (h : Trimmed p l) (hblanks : ∀ c ∈ blanks, p c = true) :
    trim p (l ++ blanks) = l := by
  cases l with
  | nil =>
    have hdrop : blanks.dropWhile p = [] := List.dropWhile_eq_nil_iff.mpr hblanks
    rw [List.nil_append, trim, hdrop]
    rfl
  | cons c l =>
    have hfront : (c :: l ++ blanks).dropWhile p = c :: l ++ blanks := by
      simp [h.first c (by simp)]
    rw [trim, hfront, List.rdropWhile, List.reverse_append, List.dropWhile_append_of_pos]
    · exact h.rdropWhile
    · simpa using hblanks

theorem Trimmed.trim_eq (h : Trimmed p l) : trim p l = l := by
  have hnone : ∀ c ∈ ([] : List α), p c = true := by simp
  simpa using h.trim_append hnone

/-- A list without blanks is trimmed. -/
theorem trimmed_of_forall (h : ∀ c ∈ l, p c = false) : Trimmed p l where
  first := fun c hc => h c (List.mem_of_mem_head? hc)
  last := fun c hc => h c (List.mem_of_mem_getLast? hc)

/-- What is left after trimming is trimmed. -/
theorem trimmed_trim (p : α → Bool) (l : List α) : Trimmed p (trim p l) where
  first := by
    intro c hc
    have hprefix : trim p l <+: l.dropWhile p := List.rdropWhile_prefix p _
    have hhead : (l.dropWhile p).head? = some c := by
      obtain ⟨rest, hrest⟩ := hprefix
      rw [← hrest, List.head?_append, Option.mem_def.mp hc]
      rfl
    have hnot := List.head?_dropWhile_not p l
    rw [hhead] at hnot
    exact hnot
  last := by
    intro c hc
    obtain ⟨hne, rfl⟩ := List.mem_getLast?_eq_getLast hc
    have hnot := List.rdropWhile_last_not p (l.dropWhile p) hne
    exact Bool.eq_false_iff.mpr hnot

theorem trim_trim (p : α → Bool) (l : List α) : trim p (trim p l) = trim p l :=
  (trimmed_trim p l).trim_eq

theorem trim_blanks_append (hblanks : ∀ c ∈ blanks, p c = true) (l : List α) :
    trim p (blanks ++ l) = trim p l := by
  rw [trim, List.dropWhile_append_of_pos hblanks, trim]

/-- What trimming takes off is blank. -/
theorem exists_blanks (p : α → Bool) (l : List α) : ∃ front back, l = front ++ (trim p l ++ back) ∧
    (∀ c ∈ front, p c = true) ∧ ∀ c ∈ back, p c = true := by
  refine ⟨l.takeWhile p, (l.dropWhile p).rtakeWhile p, ?_, ?_, ?_⟩
  · rw [trim, List.rdropWhile_append_rtakeWhile, List.takeWhile_append_dropWhile]
  · exact fun c hc => List.mem_takeWhile_imp hc
  · exact fun c hc => List.mem_rtakeWhile_imp hc

/-- Blanks around a list do not matter. -/
theorem trim_padded {front back : List α} (hfront : ∀ c ∈ front, p c = true)
    (hback : ∀ c ∈ back, p c = true) (l : List α) : trim p (front ++ l ++ back) = trim p l := by
  obtain ⟨start, rest, hl, hstart, hrest⟩ := exists_blanks p l
  have hblanks : ∀ c ∈ rest ++ back, p c = true := List.forall_mem_append.mpr ⟨hrest, hback⟩
  have hsplit : l ++ back = start ++ (trim p l ++ (rest ++ back)) := by
    calc l ++ back = start ++ (trim p l ++ rest) ++ back := by rw [← hl]
      _ = start ++ (trim p l ++ (rest ++ back)) := by simp only [List.append_assoc]
  rw [List.append_assoc, trim_blanks_append hfront, hsplit, trim_blanks_append hstart,
    (trimmed_trim p l).trim_append hblanks]

theorem trim_eq_nil_iff : trim p l = [] ↔ ∀ c ∈ l, p c = true := by
  constructor
  · intro hnil
    obtain ⟨front, back, hl, hfront, hback⟩ := exists_blanks p l
    rw [hnil, List.nil_append] at hl
    rw [hl]
    exact List.forall_mem_append.mpr ⟨hfront, hback⟩
  · intro hblanks
    have hdrop : l.dropWhile p = [] := List.dropWhile_eq_nil_iff.mpr hblanks
    rw [trim, hdrop]
    rfl

end Hologotchi.Library.Trim
