import Mathlib.Data.List.AList
import Mathlib.Order.Basic

/-! Values that expire, in a store that keeps the newest of each key and may forget expired ones,
against the log of everything that was put into it. -/
namespace Hologotchi.Library

variable {κ ν τ : Type*}

/-- A dictionary; the order of its entries is of no use to anyone. -/
abbrev Dict (κ ν : Type*) := AList fun _ : κ => ν

namespace Expiring

/-- The value put last. -/
def latest [DecidableEq κ] (log : List (κ × ν)) (key : κ) : Option ν := log.reverse.lookup key

/-- Forget the values that `gone` selects. -/
def prune (gone : ν → Bool) (d : Dict κ ν) : Dict κ ν where
  entries := d.entries.filter fun e => !gone e.2
  nodupKeys := d.nodupKeys.sublist List.filter_sublist

/-- The value, unless it is gone by now. -/
def live (gone : τ → ν → Bool) (now : τ) (value : Option ν) : Option ν :=
  value.filter fun v => !gone now v

variable [DecidableEq κ] {gone : τ → ν → Bool} {now later : τ} {d : Dict κ ν}
  {log : List (κ × ν)} {key other : κ} {v w : ν} {cell : Option ν}

theorem latest_append : latest (log ++ [(other, v)]) key =
    if key = other then some v else latest log key := by
  by_cases h : key = other
  · simp [latest, h]
  · have hbeq : (key == other) = false := beq_false_of_ne h
    simp [latest, List.lookup_cons, h, hbeq]

theorem mem_of_latest (h : latest log key = some v) : (key, v) ∈ log := by
  obtain ⟨before, after, hsplit, -⟩ := List.lookup_eq_some_iff.mp h
  have hmem : (key, v) ∈ log.reverse := by simp [hsplit]
  exact List.mem_reverse.mp hmem

/-- Values put under different keys commute. -/
theorem latest_swap (h : key ≠ other) (k : κ) : latest (log ++ [(key, v), (other, w)]) k =
    latest (log ++ [(other, w), (key, v)]) k := by
  have hsplit : ∀ a b : κ × ν, log ++ [a, b] = (log ++ [a]) ++ [b] := by simp
  rw [hsplit, hsplit, latest_append, latest_append, latest_append, latest_append]
  by_cases hk : k = other
  · have hne : ¬ k = key := fun he => h (he.symm.trans hk)
    rw [if_pos hk, if_neg hne, if_pos hk]
  · rw [if_neg hk, if_neg hk]

theorem lookup_prune (p : ν → Bool) : (prune p d).lookup key = (d.lookup key).filter fun v => !p v := by
  apply Option.ext
  intro v
  have hmem := AList.mem_lookup_iff (a := key) (b := v) (s := prune p d)
  have hmem' := AList.mem_lookup_iff (a := key) (b := v) (s := d)
  rw [Option.mem_def] at hmem hmem'
  rw [hmem, Option.filter_eq_some_iff, hmem', prune]
  exact List.mem_filter

theorem live_eq_some : live gone now cell = some v ↔ cell = some v ∧ gone now v = false := by
  simp [live, Option.filter_eq_some_iff]

theorem live_eq_none : live gone now cell = none ↔ ∀ v, cell = some v → gone now v = true := by
  simp [live, Option.filter_eq_none_iff]

/-- What a store holds under some keys is gone. -/
theorem forall_entries_gone {P : κ → Prop} : (∀ e ∈ d.entries, P e.1 → gone now e.2 = true) ↔
    ∀ key, P key → live gone now (d.lookup key) = none := by
  constructor
  · intro h key hkey
    apply live_eq_none.mpr
    intro v hv
    exact h ⟨key, v⟩ (AList.mem_lookup_iff.mp hv) hkey
  · intro h e he hkey
    exact live_eq_none.mp (h e.1 hkey) e.2 (AList.mem_lookup_iff.mpr he)

variable [Preorder τ]

/-- From now on nobody can tell a cell from the value it stands for. -/
def CellAgrees (gone : τ → ν → Bool) (now : τ) (cell value : Option ν) : Prop :=
  ∀ t, now ≤ t → live gone t cell = live gone t value

/-- From now on nobody can tell the store from the log. -/
def Agrees (gone : τ → ν → Bool) (now : τ) (d : Dict κ ν) (log : List (κ × ν)) : Prop :=
  ∀ key, CellAgrees gone now (d.lookup key) (latest log key)

theorem cellAgrees_self (now : τ) (cell : Option ν) : CellAgrees gone now cell cell := fun _ _ => rfl

theorem cellAgrees_mono {value : Option ν} (h : CellAgrees gone now cell value)
    (hle : now ≤ later) : CellAgrees gone later cell value :=
  fun t ht => h t (le_trans hle ht)

/-- Forgetting what is gone does not show, when gone values stay gone. -/
theorem cellAgrees_prune {value : Option ν}
    (hgone : ∀ s t v, s ≤ t → gone s v = true → gone t v = true)
    (h : CellAgrees gone now cell value) : CellAgrees gone now (live gone now cell) value := by
  intro t ht
  rw [← h t ht]
  apply Option.ext
  intro v
  rw [live_eq_some, live_eq_some, live_eq_some]
  constructor
  · rintro ⟨⟨hcell, -⟩, hlive⟩
    exact ⟨hcell, hlive⟩
  · rintro ⟨hcell, hlive⟩
    refine ⟨⟨hcell, ?_⟩, hlive⟩
    cases hnow : gone now v with
    | false => rfl
    | true =>
      have hlater := hgone now t v ht hnow
      rw [hlive] at hlater
      contradiction

theorem agrees_nil (now : τ) : Agrees gone now (∅ : Dict κ ν) [] := by
  intro key t _
  rw [AList.lookup_empty]
  rfl

theorem agrees_mono (h : Agrees gone now d log) (hle : now ≤ later) : Agrees gone later d log :=
  fun key => cellAgrees_mono (h key) hle

theorem agrees_insert (h : Agrees gone now d log) :
    Agrees gone now (d.insert key v) (log ++ [(key, v)]) := by
  intro k
  rw [latest_append]
  by_cases hk : k = key
  · subst hk
    rw [AList.lookup_insert, if_pos rfl]
    exact cellAgrees_self now _
  · rw [AList.lookup_insert_ne hk, if_neg hk]
    exact h k

theorem agrees_prune (hgone : ∀ s t v, s ≤ t → gone s v = true → gone t v = true)
    (h : Agrees gone now d log) : Agrees gone now (prune (gone now) d) log := by
  intro key
  rw [lookup_prune]
  exact cellAgrees_prune hgone (h key)

end Expiring

end Hologotchi.Library
