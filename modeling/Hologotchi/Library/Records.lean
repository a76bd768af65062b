import Hologotchi.Library.Fallible
import Mathlib.Data.List.Basic

/-! Records written one after the other and read one at a time. -/
namespace Hologotchi.Library

/-- How a record is written, and how the first one of a text is read. -/
structure Records (ε α β : Type*) where
  write : α → List β
  next : List β → Except ε (α × List β)
  next_eq_ok_iff : ∀ {text a rest}, next text = .ok (a, rest) ↔ text = write a ++ rest
  write_ne_nil : ∀ a, write a ≠ []

namespace Records

variable {ε α β : Type*} {r : Records ε α β} {a : α} {as : List α} {text rest cut : List β}

def writeAll (r : Records ε α β) (as : List α) : List β := as.flatMap r.write

@[simp] theorem writeAll_nil : r.writeAll [] = [] := rfl

@[simp] theorem writeAll_cons : r.writeAll (a :: as) = r.write a ++ r.writeAll as := rfl

theorem next_write (a : α) (rest : List β) : r.next (r.write a ++ rest) = .ok (a, rest) :=
  r.next_eq_ok_iff.mpr rfl

/-- A record is not read before its end. -/
theorem next_of_cut (h : cut <+: r.write a) (hne : cut ≠ r.write a) :
    ∃ e, r.next cut = .error e := by
  cases hnext : r.next cut with
  | error e => exact ⟨e, rfl⟩
  | ok result =>
    obtain ⟨b, left⟩ := result
    obtain ⟨tail, htail⟩ := h
    have hcut := r.next_eq_ok_iff.mp hnext
    have hwhole : r.next (r.write a) = .ok (b, left ++ tail) := by
      rw [r.next_eq_ok_iff, ← htail, hcut, List.append_assoc]
    have hself := r.next_write a []
    rw [List.append_nil, hwhole] at hself
    obtain ⟨-, hempty⟩ := Prod.mk.inj (Except.ok.inj hself)
    obtain ⟨-, rfl⟩ := List.append_eq_nil_iff.mp hempty
    exact absurd (by simpa using htail) hne

/-- The place of a cut: between two records or inside of one. -/
inductive CutAt (r : Records ε α β) (as bs : List α) : List β → Prop
  | between : CutAt r as bs []
  | inside {a : α} {cut : List β} (hnext : bs ++ [a] <+: as) (hcut : cut <+: r.write a)
      (hempty : cut ≠ []) (hwhole : cut ≠ r.write a) : CutAt r as bs cut

/-- A text of records that is cut off ends between two of them or inside of one. -/
theorem exists_cutAt (as : List α) (n : ℕ) :
    ∃ bs cut, (r.writeAll as).take n = r.writeAll bs ++ cut ∧ bs <+: as ∧ CutAt r as bs cut := by
  induction as generalizing n with
  | nil => exact ⟨[], [], by simp, List.prefix_refl [], .between⟩
  | cons a as ih =>
    rw [writeAll_cons]
    rcases Nat.lt_or_ge n (r.write a).length with hn | hn
    · rw [List.take_append_of_le_length (Nat.le_of_lt hn)]
      rcases Nat.eq_zero_or_pos n with rfl | hpos
      · exact ⟨[], [], by simp, List.nil_prefix, .between⟩
      · have hlength : ((r.write a).take n).length = n := List.length_take_of_le (Nat.le_of_lt hn)
        refine ⟨[], (r.write a).take n, rfl, List.nil_prefix, ?_⟩
        refine .inside (a := a) ⟨as, rfl⟩ (List.take_prefix n _) ?_ ?_
        · intro hempty
          rw [hempty, List.length_nil] at hlength
          omega
        · intro hwhole
          rw [hwhole] at hlength
          omega
    · obtain ⟨bs, cut, htake, ⟨after, hafter⟩, hcut⟩ := ih (n - (r.write a).length)
      refine ⟨a :: bs, cut, ?_, ⟨after, by simp [hafter]⟩, ?_⟩
      · rw [List.take_append, List.take_of_length_le hn, htake, writeAll_cons, List.append_assoc]
      · cases hcut with
        | between => exact .between
        | inside hnext hcut hempty hwhole =>
          obtain ⟨later, hlater⟩ := hnext
          exact .inside ⟨later, by simp [← hlater]⟩ hcut hempty hwhole

end Records

end Hologotchi.Library
