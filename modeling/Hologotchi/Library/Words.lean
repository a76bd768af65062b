import Mathlib.Data.List.Basic

/-! The words of a text: its longest stretches without a separator. -/
namespace Hologotchi.Library.Words

variable {α : Type*}

def words (sep : α → Bool) (s : List α) : List (List α) := (s.splitOnP sep).filter (!·.isEmpty)

/-- A word: not empty, and without a separator. -/
structure IsWord (sep : α → Bool) (w : List α) : Prop where
  ne_nil : w ≠ []
  not_sep : ∀ c ∈ w, sep c = false

variable {sep : α → Bool} {c d : α} {s w : List α} {ws : List (List α)}

@[simp] theorem words_nil : words sep [] = [] := by simp [words]

@[simp] theorem words_cons_sep (hc : sep c = true) : words sep (c :: s) = words sep s := by
  simp [words, List.splitOnP_cons_eq_if_modifyHead, hc]

theorem words_self (hw : IsWord sep w) : words sep w = [w] := by
  simp [words, List.splitOnP_eq_singleton hw.not_sep, hw.ne_nil]

theorem words_append_sep (hw : IsWord sep w) (hc : sep c = true) :
    words sep (w ++ c :: s) = w :: words sep s := by
  rw [words, List.splitOnP_append_cons_of_forall_mem hw.not_sep c hc]
  simp [words, hw.ne_nil]

/-- Words that each end with a separator are told apart again. -/
theorem words_terminated (hws : ∀ w ∈ ws, IsWord sep w) (hc : sep c = true) :
    words sep (ws.flatMap (· ++ [c])) = ws := by
  induction ws with
  | nil => simp
  | cons w ws ih =>
    obtain ⟨hw, hws⟩ := List.forall_mem_cons.mp hws
    rw [List.flatMap_cons, List.append_assoc, List.singleton_append, words_append_sep hw hc, ih hws]

/-- Words with a separator between each two are told apart again. -/
theorem words_intercalate (hws : ∀ w ∈ ws, IsWord sep w) (hc : sep c = true) :
    words sep ([c].intercalate ws) = ws := by
  induction ws with
  | nil => simp
  | cons w ws ih =>
    obtain ⟨hw, hws⟩ := List.forall_mem_cons.mp hws
    cases ws with
    | nil => simpa using words_self hw
    | cons v ws =>
      rw [List.intercalate_cons_cons, List.append_assoc, List.singleton_append,
        words_append_sep hw hc, ih hws]

/-- Separators between the words and one at the end are a separator after each. -/
theorem intercalate_append (hws : ws ≠ []) :
    [c].intercalate ws ++ [c] = ws.flatMap (· ++ [c]) := by
  induction ws with
  | nil => contradiction
  | cons w ws ih =>
    cases ws with
    | nil => simp
    | cons v ws =>
      have hrest := ih (List.cons_ne_nil v ws)
      rw [List.intercalate_cons_cons, List.append_assoc, hrest]
      rfl

/-- Two runs of words, one after the other. -/
theorem intercalate_separated {vs : List (List α)} (hvs : vs ≠ []) (hws : ws ≠ []) :
    [c].intercalate (vs ++ ws) = [c].intercalate vs ++ c :: [c].intercalate ws := by
  induction vs with
  | nil => contradiction
  | cons v vs ih =>
    cases vs with
    | nil => simp [List.intercalate_cons_of_ne_nil hws]
    | cons u vs =>
      have hrest := ih (List.cons_ne_nil u vs)
      rw [List.cons_append, List.cons_append, List.intercalate_cons_cons, ← List.cons_append, hrest,
        List.intercalate_cons_cons]
      simp

/-- A word stands between separators among words that each end with one. -/
theorem terminated_infix (h : w ∈ ws) : c :: w ++ [c] <:+: c :: ws.flatMap (· ++ [c]) := by
  induction ws with
  | nil => simp at h
  | cons v ws ih =>
    rcases List.mem_cons.mp h with rfl | h
    · exact ⟨[], ws.flatMap (· ++ [c]), by simp⟩
    · obtain ⟨before, after, hsplit⟩ := ih h
      exact ⟨c :: v ++ before, after, by simp [← hsplit]⟩

theorem mem_intercalate (h : d ∈ [c].intercalate ws) : d = c ∨ ∃ w ∈ ws, d ∈ w := by
  induction ws with
  | nil => simp at h
  | cons w ws ih =>
    cases ws with
    | nil => exact .inr ⟨w, by simp, by simpa using h⟩
    | cons v ws =>
      simp only [List.intercalate_cons_cons, List.mem_append, List.mem_singleton] at h
      rcases h with (h | rfl) | h
      · exact .inr ⟨w, by simp, h⟩
      · exact .inl rfl
      · rcases ih h with rfl | ⟨u, hu, hd⟩
        · exact .inl rfl
        · exact .inr ⟨u, List.mem_cons_of_mem _ hu, hd⟩

/-- What splitting leaves has no separator. -/
theorem not_sep_of_mem_splitOnP (h : w ∈ s.splitOnP sep) : ∀ c ∈ w, sep c = false := by
  induction s generalizing w with
  | nil =>
    simp only [List.splitOnP_nil, List.mem_singleton] at h
    simp [h]
  | cons a s ih =>
    rw [List.splitOnP_cons_eq_if_modifyHead] at h
    by_cases ha : sep a = true
    · rw [if_pos ha] at h
      rcases List.mem_cons.mp h with rfl | h
      · simp
      · exact ih h
    · obtain ⟨first, rest, hsplit⟩ := List.exists_cons_of_ne_nil (List.splitOnP_ne_nil sep s)
      rw [if_neg ha, hsplit, List.modifyHead_cons] at h
      rcases List.mem_cons.mp h with rfl | h
      · have hfirst := ih (w := first) (by simp [hsplit])
        intro c hc
        rcases List.mem_cons.mp hc with rfl | hc
        · simpa using ha
        · exact hfirst c hc
      · exact ih (by simp [hsplit, h])

theorem isWord_of_mem (h : w ∈ words sep s) : IsWord sep w := by
  obtain ⟨hmem, hne⟩ := List.mem_filter.mp h
  exact ⟨by simpa using hne, not_sep_of_mem_splitOnP hmem⟩

end Hologotchi.Library.Words
