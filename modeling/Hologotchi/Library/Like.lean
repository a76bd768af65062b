import Mathlib.Data.List.Forall2
import Mathlib.Data.List.Infix

/-! The `LIKE` patterns of SQL over code points: `%` stands for any text, `_` for any code
point, and ASCII letters match without regard to case. -/
namespace Hologotchi.Library.Like

/-- The ASCII capitals as small letters. -/
def foldCase (c : ℕ) : ℕ := if 65 ≤ c ∧ c ≤ 90 then c + 32 else c

def like : List ℕ → List ℕ → Bool
  | [], t => t.isEmpty
  | 37 :: p, t => t.tails.any (like p)
  | 95 :: _, [] => false
  | 95 :: p, _ :: t => like p t
  | _ :: _, [] => false
  | c :: p, d :: t => foldCase c == foldCase d && like p t

/-- A pattern character other than `%` and a character of the text it matches. -/
def Fits (c d : ℕ) : Prop := c = 95 ∨ foldCase c = foldCase d

instance : DecidableRel Fits := fun c d =>
  inferInstanceAs (Decidable (c = 95 ∨ foldCase c = foldCase d))

/-- The text has a stretch that the pattern fits, character by character. -/
def Occurs (R : ℕ → ℕ → Prop) (p t : List ℕ) : Prop :=
  ∃ before stretch after, t = before ++ stretch ++ after ∧ List.Forall₂ R p stretch

variable {R S : ℕ → ℕ → Prop} {c d : ℕ} {p q t : List ℕ}

theorem like_percent : like (37 :: p) t = true ↔ ∃ before rest, t = before ++ rest ∧ like p rest := by
  simp only [like, List.any_eq_true, List.mem_tails]
  constructor
  · rintro ⟨rest, ⟨before, rfl⟩, h⟩
    exact ⟨before, rest, rfl, h⟩
  · rintro ⟨before, rest, rfl, h⟩
    exact ⟨rest, ⟨before, rfl⟩, h⟩

theorem not_like_cons_nil (hc : c ≠ 37) : like (c :: p) [] = false := by
  by_cases h : c = 95
  · subst h
    rfl
  · simp [like]

theorem like_cons_cons (hc : c ≠ 37) :
    like (c :: p) (d :: t) = true ↔ Fits c d ∧ like p t = true := by
  by_cases h : c = 95
  · subst h
    simp [like, Fits]
  · simp [like, Fits, h]

/-- A pattern without `%` and one that may have it. -/
theorem like_append (hp : 37 ∉ p) : like (p ++ q) t = true ↔
    ∃ stretch rest, t = stretch ++ rest ∧ List.Forall₂ Fits p stretch ∧ like q rest = true := by
  induction p generalizing t with
  | nil => simp
  | cons c p ih =>
    obtain ⟨hc, hp⟩ : 37 ≠ c ∧ 37 ∉ p := by simpa using hp
    cases t with
    | nil => simp [not_like_cons_nil (Ne.symm hc)]
    | cons d t =>
      rw [List.cons_append, like_cons_cons (Ne.symm hc), ih hp]
      constructor
      · rintro ⟨hfit, stretch, rest, rfl, hall, hrest⟩
        exact ⟨d :: stretch, rest, rfl, .cons hfit hall, hrest⟩
      · rintro ⟨stretch, rest, heq, hall, hrest⟩
        cases hall with
        | cons hfit hall =>
          obtain ⟨rfl, rfl⟩ := List.cons.inj heq
          exact ⟨hfit, _, _, rfl, hall, hrest⟩

/-- `%p%` matches the texts in which `p` occurs. -/
theorem like_within (hp : 37 ∉ p) : like (37 :: p ++ [37]) t = true ↔ Occurs Fits p t := by
  have hany (rest : List ℕ) : like [37] rest = true := by
    rw [like_percent]
    exact ⟨rest, [], by simp, rfl⟩
  rw [List.cons_append, like_percent]
  constructor
  · rintro ⟨before, later, rfl, h⟩
    obtain ⟨stretch, after, rfl, hfits, -⟩ := (like_append hp).mp h
    exact ⟨before, stretch, after, by simp, hfits⟩
  · rintro ⟨before, stretch, after, rfl, hfits⟩
    refine ⟨before, stretch ++ after, by simp, (like_append hp).mpr ?_⟩
    exact ⟨stretch, after, rfl, hfits, hany after⟩

theorem Occurs.mono (h : Occurs R p t) (hRS : ∀ c ∈ p, ∀ d ∈ t, R c d → S c d) :
    Occurs S p t := by
  obtain ⟨before, stretch, after, rfl, hall⟩ := h
  refine ⟨before, stretch, after, rfl, ?_⟩
  rw [List.forall₂_iff_zip] at hall ⊢
  refine ⟨hall.1, fun {c d} hmem => hRS c (List.of_mem_zip hmem).1 d ?_ (hall.2 hmem)⟩
  simp [(List.of_mem_zip hmem).2]

/-- What occurs between two characters occurs. -/
theorem Occurs.inner (h : Occurs R (c :: p ++ [d]) t) : Occurs R p t := by
  obtain ⟨before, stretch, after, rfl, hall⟩ := h
  cases hall with
  | @cons _ x _ stretch _ hall =>
    have hinner : List.Forall₂ R ((p ++ [d]).take p.length) (stretch.take p.length) :=
      List.forall₂_take p.length hall
    rw [List.take_left] at hinner
    refine ⟨before ++ [x], stretch.take p.length, stretch.drop p.length ++ after, ?_, hinner⟩
    have hwhole : stretch = stretch.take p.length ++ stretch.drop p.length := by simp
    nth_rewrite 1 [hwhole]
    simp only [List.append_assoc, List.cons_append, List.nil_append]

theorem occurs_of_infix (hrefl : ∀ c ∈ p, R c c) (h : p <:+: t) : Occurs R p t := by
  obtain ⟨before, after, rfl⟩ := h
  exact ⟨before, p, after, rfl, List.forall₂_same.mpr hrefl⟩

end Hologotchi.Library.Like
