import Mathlib.Data.List.DropRight
import Mathlib.Data.Nat.Find

/-! Blocks of equal entries in a list, and the last block that is long enough. -/
namespace Hologotchi.Library.Streaks

variable {α : Type*}

/-- A block of at least `n` entries `v`, with what comes after it. -/
def Block (n : ℕ) (v : α) (l after : List α) : Prop :=
  ∃ before m, n ≤ m ∧ l = before ++ List.replicate m v ++ after

/-- The last block among those of the values that count has the value `v`. -/
def LastBlock (counts : α → Prop) (n : ℕ) (v : α) (l : List α) : Prop :=
  counts v ∧ ∃ after, Block n v l after ∧
    ∀ w later, counts w → Block n w l later → after.length ≤ later.length

section

variable {counts : α → Prop} {n : ℕ} {v w x : α} {l after : List α}

theorem block_concat_iff {y : α} :
    Block n v (l ++ [x]) (after ++ [y]) ↔ y = x ∧ Block n v l after := by
  constructor
  · rintro ⟨before, m, hm, h⟩
    rw [← List.append_assoc] at h
    obtain ⟨hl, hx⟩ := List.append_inj' h rfl
    exact ⟨(List.cons.inj hx).1.symm, before, m, hm, hl⟩
  · rintro ⟨rfl, before, m, hm, rfl⟩
    exact ⟨before, m, hm, by simp⟩

theorem not_block_nil (hn : 1 ≤ n) : ¬ Block n v [] after := by
  rintro ⟨before, m, hm, h⟩
  have hlength := congrArg List.length h
  simp only [List.length_append, List.length_replicate, List.length_nil] at hlength
  omega

/-- Where there is a block that counts, there is a last one. -/
theorem exists_lastBlock (hv : counts v) (h : Block n v l after) :
    ∃ w, LastBlock counts n w l := by
  classical
  have hex : ∃ k, ∃ w later, counts w ∧ Block n w l later ∧ later.length = k :=
    ⟨after.length, v, after, hv, h, rfl⟩
  obtain ⟨w, later, hw, hblock, hlength⟩ := Nat.find_spec hex
  refine ⟨w, hw, later, hblock, ?_⟩
  intro u others hu hother
  rw [hlength]
  exact Nat.find_min' hex ⟨u, others, hu, hother, rfl⟩

end

section

variable [DecidableEq α] {counts : α → Prop} {n : ℕ} {v w x : α} {l after : List α}

/-- The number of entries `v` at the end of the list. -/
def streak (v : α) (l : List α) : ℕ := (l.rtakeWhile (· = v)).length

@[simp] theorem streak_nil (v : α) : streak v [] = 0 := rfl

@[simp] theorem streak_concat_self (v : α) (l : List α) :
    streak v (l ++ [v]) = streak v l + 1 := by
  rw [streak, List.rtakeWhile_concat_pos _ _ _ (by simp), List.length_append]
  rfl

theorem streak_concat_of_ne (h : x ≠ v) : streak v (l ++ [x]) = 0 := by
  rw [streak, List.rtakeWhile_concat_neg _ _ _ (by simpa using h)]
  rfl

/-- A list ends in one value only. -/
theorem streak_eq_zero_of_ne (h : 0 < streak v l) (hne : w ≠ v) : streak w l = 0 := by
  induction l using List.reverseRecOn with
  | nil => rfl
  | append_singleton l x _ =>
    by_cases hx : x = v
    · subst x
      exact streak_concat_of_ne hne.symm
    · rw [streak_concat_of_ne hx] at h
      omega

theorem le_streak_iff : n ≤ streak v l ↔ Block n v l [] := by
  constructor
  · intro h
    refine ⟨l.rdropWhile (· = v), streak v l, h, ?_⟩
    have hall : l.rtakeWhile (· = v) = List.replicate (streak v l) v :=
      List.eq_replicate_iff.mpr ⟨rfl, fun y hy => by simpa using List.mem_rtakeWhile_imp hy⟩
    rw [List.append_nil, ← hall, List.rdropWhile_append_rtakeWhile]
  · rintro ⟨before, m, hm, rfl⟩
    have hlong : m ≤ streak v (before ++ List.replicate m v) := by
      clear hm
      induction m with
      | zero => exact Nat.zero_le _
      | succ m ih =>
        rw [List.replicate_succ', ← List.append_assoc, streak_concat_self]
        omega
    rw [List.append_nil]
    omega

/-- A streak that is long enough is the last block. -/
theorem lastBlock_of_streak (hn : 1 ≤ n) (hx : counts x) (h : n ≤ streak x l) :
    LastBlock counts n v l ↔ v = x := by
  constructor
  · rintro ⟨hv, after, hblock, hlast⟩
    have hnone : after.length ≤ 0 := hlast x [] hx (le_streak_iff.mp h)
    obtain rfl : after = [] := List.length_eq_zero_iff.mp (by omega)
    by_contra hne
    have hstreak : n ≤ streak v l := le_streak_iff.mpr hblock
    have hzero := streak_eq_zero_of_ne (by omega : 0 < streak x l) hne
    omega
  · rintro rfl
    exact ⟨hx, [], le_streak_iff.mp h, fun _ _ _ _ => Nat.zero_le _⟩

/-- An entry that does not make a streak long enough leaves the last block as it was. -/
theorem lastBlock_concat (hn : 1 ≤ n) (h : counts x → streak x (l ++ [x]) < n) :
    LastBlock counts n v (l ++ [x]) ↔ LastBlock counts n v l := by
  have hend : ∀ {w later}, counts w → Block n w (l ++ [x]) later →
      ∃ before, later = before ++ [x] ∧ Block n w l before := by
    intro w later hw hblock
    cases later using List.reverseRecOn with
    | nil =>
      have hstreak : n ≤ streak w (l ++ [x]) := le_streak_iff.mpr hblock
      by_cases hwx : x = w
      · subst w
        have hlt := h hw
        omega
      · rw [streak_concat_of_ne hwx] at hstreak
        omega
    | append_singleton before y =>
      obtain ⟨rfl, hbefore⟩ := block_concat_iff.mp hblock
      exact ⟨before, rfl, hbefore⟩
  constructor
  · rintro ⟨hv, after, hblock, hlast⟩
    obtain ⟨before, rfl, hbefore⟩ := hend hv hblock
    refine ⟨hv, before, hbefore, ?_⟩
    intro w later hw hlater
    have hle := hlast w (later ++ [x]) hw (block_concat_iff.mpr ⟨rfl, hlater⟩)
    simpa using hle
  · rintro ⟨hv, after, hblock, hlast⟩
    refine ⟨hv, after ++ [x], block_concat_iff.mpr ⟨rfl, hblock⟩, ?_⟩
    intro w later hw hlater
    obtain ⟨before, rfl, hbefore⟩ := hend hw hlater
    simpa using hlast w before hw hbefore

end

end Hologotchi.Library.Streaks
