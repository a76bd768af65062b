import Hologotchi.Library.Runs
import Hologotchi.Library.Streaks
import Mathlib.Data.List.Chain
import Mathlib.Data.List.ReduceOption

/-! Debounced presence readings (`host/airpods_presence.py`). -/
namespace Hologotchi.Presence

open Library Streaks

/-- Known or, as `None`, unknown. -/
abbrev Reading := Option Bool

structure PresenceDebouncer where
  required : ℕ
  required_pos : 1 ≤ required
  confirmed : Option Bool
  candidate : Option Bool
  count : ℕ

def requiredConsecutive : ℤ := 2

namespace PresenceDebouncer

/-- `__init__`; the error is the text of its `ValueError`. -/
def new (required : ℤ) : Except String PresenceDebouncer :=
  if h : required < 1 then .error "required must be at least 1"
  else .ok ⟨required.toNat, by omega, none, none, 0⟩

def observe (d : PresenceDebouncer) (reading : Reading) : PresenceDebouncer × Option Bool :=
  if reading = none then ({ d with candidate := none, count := 0 }, none)
  else if reading = d.confirmed then ({ d with candidate := none, count := 0 }, none)
  else
    let count := if reading = d.candidate then d.count + 1 else 1
    if d.required ≤ count then
      ({ d with confirmed := reading, candidate := none, count := 0 }, reading)
    else ({ d with candidate := reading, count }, none)

variable {d : PresenceDebouncer} {past readings : List Reading} {reading : Reading} {v : Bool}

def Known (reading : Reading) : Prop := reading ≠ none

theorem observe_none (d : PresenceDebouncer) :
    d.observe none = ({ d with candidate := none, count := 0 }, none) := rfl

theorem observe_confirmed (h : d.confirmed = some v) :
    d.observe (some v) = ({ d with candidate := none, count := 0 }, none) := by
  simp [observe, h]

/-- The count of a reading that is not the confirmed one. -/
def counted (d : PresenceDebouncer) (v : Bool) : ℕ :=
  if d.candidate = some v then d.count + 1 else 1

theorem observe_flip (h : d.confirmed ≠ some v) (hcount : d.required ≤ d.counted v) :
    d.observe (some v) =
      ({ d with confirmed := some v, candidate := none, count := 0 }, some v) := by
  rw [counted] at hcount
  simp [observe, h.symm, eq_comm, hcount]

theorem observe_candidate (h : d.confirmed ≠ some v) (hcount : d.counted v < d.required) :
    d.observe (some v) = ({ d with candidate := some v, count := d.counted v }, none) := by
  have hnot : ¬ d.required ≤ d.counted v := by omega
  rw [counted] at hnot
  simp [observe, h.symm, eq_comm, hnot, counted]

/-- What the fields say about the readings of the past. -/
structure Follows (past : List Reading) (d : PresenceDebouncer) : Prop where
  confirmed : ∀ v, d.confirmed = some v ↔ LastBlock Known d.required (some v) past
  candidate : ∀ v, d.candidate = some v → d.count = streak (some v) past ∧ 0 < d.count
  other : ∀ v, d.confirmed ≠ some v → d.candidate ≠ some v → streak (some v) past = 0

theorem Follows.counted_eq (h : Follows past d) (hv : d.confirmed ≠ some v) :
    d.counted v = streak (some v) (past ++ [some v]) := by
  rw [streak_concat_self, counted]
  split
  · rename_i hcandidate
    rw [(h.candidate v hcandidate).1]
  · rename_i hcandidate
    rw [h.other v hv hcandidate]

theorem streak_other {w : Bool} (h : w ≠ v) : streak (some w) (past ++ [some v]) = 0 :=
  streak_concat_of_ne fun heq => h (Option.some.inj heq).symm

theorem follows_observe_none (h : Follows past d) :
    Follows (past ++ [none]) (d.observe none).1 := by
  rw [observe_none]
  refine ⟨fun v => ?_, by simp, fun v _ _ => streak_concat_of_ne (by simp)⟩
  rw [lastBlock_concat d.required_pos fun hknown : Known none => absurd rfl hknown]
  exact h.confirmed v

theorem follows_observe_confirmed (h : Follows past d) (hv : d.confirmed = some v) :
    Follows (past ++ [some v]) (d.observe (some v)).1 := by
  rw [observe_confirmed hv]
  refine ⟨fun w => ?_, by simp, fun w hw _ => streak_other ?_⟩
  · by_cases hlong : d.required ≤ streak (some v) (past ++ [some v])
    · rw [lastBlock_of_streak d.required_pos (by simp [Known]) hlong]
      simp only [hv]
      exact eq_comm
    · rw [lastBlock_concat d.required_pos fun _ => Nat.lt_of_not_le hlong]
      exact h.confirmed w
  · rintro rfl
    exact hw hv

theorem follows_observe_counted (h : Follows past d) (hv : d.confirmed ≠ some v) :
    Follows (past ++ [some v]) (d.observe (some v)).1 := by
  have hcounted := h.counted_eq hv
  by_cases hcount : d.required ≤ d.counted v
  · rw [observe_flip hv hcount]
    refine ⟨fun w => ?_, by simp, fun w hw _ => streak_other ?_⟩
    · rw [lastBlock_of_streak d.required_pos (by simp [Known]) (hcounted ▸ hcount)]
      exact eq_comm
    · rintro rfl
      exact hw rfl
  · have hlt : d.counted v < d.required := by omega
    rw [observe_candidate hv hlt]
    refine ⟨fun w => ?_, fun w hw => ?_, fun w _ hw => streak_other ?_⟩
    · rw [lastBlock_concat d.required_pos fun _ => hcounted ▸ hlt]
      exact h.confirmed w
    · obtain rfl := Option.some.inj hw
      refine ⟨hcounted, ?_⟩
      change 0 < d.counted v
      rw [hcounted, streak_concat_self]
      omega
    · rintro rfl
      exact hw rfl

theorem follows_observe (h : Follows past d) (reading : Reading) :
    Follows (past ++ [reading]) (d.observe reading).1 := by
  cases reading with
  | none => exact follows_observe_none h
  | some v =>
    by_cases hv : d.confirmed = some v
    · exact follows_observe_confirmed h hv
    · exact follows_observe_counted h hv

/-- A reading confirms its value and returns it, or it keeps the confirmed one. -/
theorem observe_cases (d : PresenceDebouncer) (reading : Reading) :
    ((d.observe reading).2 = none ∧ (d.observe reading).1.confirmed = d.confirmed ∧
        (d.observe reading).1.required = d.required) ∨
      ∃ v, d.confirmed ≠ some v ∧ (d.observe reading).2 = some v ∧
        (d.observe reading).1.confirmed = some v ∧
        (d.observe reading).1.required = d.required := by
  cases reading with
  | none => exact .inl ⟨rfl, rfl, rfl⟩
  | some v =>
    by_cases hv : d.confirmed = some v
    · rw [observe_confirmed hv]
      exact .inl ⟨rfl, rfl, rfl⟩
    · by_cases hcount : d.required ≤ d.counted v
      · rw [observe_flip hv hcount]
        exact .inr ⟨v, hv, rfl, rfl, rfl⟩
      · rw [observe_candidate hv (by omega)]
        exact .inl ⟨rfl, rfl, rfl⟩

/-- A value is returned when the confirmed one changes, and it is the new one. -/
theorem observe_returns (d : PresenceDebouncer) (reading : Reading) :
    ((d.observe reading).2 ≠ none ↔ (d.observe reading).1.confirmed ≠ d.confirmed) ∧
      ((d.observe reading).2 ≠ none → (d.observe reading).2 = (d.observe reading).1.confirmed) := by
  rcases observe_cases d reading with ⟨hnone, hkept, -⟩ | ⟨v, hne, hsome, hnew, -⟩
  · simp [hnone, hkept]
  · rw [hsome, hnew]
    simp [hne.symm]

theorem observe_required (d : PresenceDebouncer) (reading : Reading) :
    (d.observe reading).1.required = d.required := by
  rcases observe_cases d reading with ⟨-, -, hrequired⟩ | ⟨v, -, -, -, hrequired⟩
  · exact hrequired
  · exact hrequired

theorem follows_run (h : Follows past d) (readings : List Reading) :
    Follows (past ++ readings) (finalState observe d readings) := by
  induction readings generalizing past d with
  | nil => simpa using h
  | cons reading readings ih => simpa using ih (follows_observe h reading)

theorem required_run (d : PresenceDebouncer) (readings : List Reading) :
    (finalState observe d readings).required = d.required := by
  induction readings generalizing d with
  | nil => rfl
  | cons reading readings ih => rw [finalState_cons, ih, observe_required]

theorem new_ok_iff {required : ℤ} :
    new required = .ok d ↔ 1 ≤ required ∧ d.required = required ∧ d.confirmed = none ∧
      d.candidate = none ∧ d.count = 0 := by
  obtain ⟨n, hn, confirmed, candidate, count⟩ := d
  unfold new
  split
  · simp only [reduceCtorEq, false_iff]
    omega
  · simp only [Except.ok.injEq, mk.injEq]
    constructor
    · rintro ⟨rfl, rfl, rfl, rfl⟩
      exact ⟨by omega, by omega, rfl, rfl, rfl⟩
    · rintro ⟨-, hrequired, rfl, rfl, rfl⟩
      exact ⟨by omega, rfl, rfl, rfl⟩

theorem follows_fresh (hconfirmed : d.confirmed = none) (hcandidate : d.candidate = none) :
    Follows [] d := by
  refine ⟨fun v => ?_, by simp [hcandidate], fun v _ _ => rfl⟩
  rw [hconfirmed]
  refine ⟨by simp, ?_⟩
  rintro ⟨-, after, hblock, -⟩
  exact absurd hblock (not_block_nil d.required_pos)

/-- Values returned one after another differ, and the last of them is the confirmed one. -/
theorem returned_alternate (hconfirmed : d.confirmed = none) (readings : List Reading) :
    (answers observe d readings).reduceOption.getLast? =
        (finalState observe d readings).confirmed ∧
      (answers observe d readings).reduceOption.IsChain (· ≠ ·) := by
  induction readings using List.reverseRecOn with
  | nil => exact ⟨hconfirmed.symm, .nil⟩
  | append_singleton readings reading ih =>
    obtain ⟨hlast, hchain⟩ := ih
    rw [answers_append, finalState_append, List.reduceOption_append]
    generalize finalState observe d readings = s at hlast ⊢
    simp only [answers_cons, answers_nil, finalState_cons, finalState_nil]
    rcases observe_cases s reading with ⟨hnone, hkept, -⟩ | ⟨v, hne, hsome, hnew, -⟩
    · rw [hnone, hkept]
      simpa using ⟨hlast, hchain⟩
    · rw [hsome, hnew, List.reduceOption_singleton, Option.toList_some]
      refine ⟨by simp, hchain.append (.singleton v) ?_⟩
      intro w hw u hu
      rw [hlast] at hw
      obtain rfl : v = u := by simpa using hu
      rintro rfl
      exact hne hw

/-- Nothing is confirmed as long as there was no block. -/
theorem Follows.confirmed_none_iff (h : Follows past d) :
    d.confirmed = none ↔ ∀ v after, ¬ Block d.required (some v) past after := by
  constructor
  · intro hnone v after hblock
    have hknown : Known (some v) := Option.some_ne_none v
    obtain ⟨w, hlast⟩ := exists_lastBlock hknown hblock
    obtain ⟨u, rfl⟩ := Option.ne_none_iff_exists'.mp hlast.1
    have hconfirmed := (h.confirmed u).mpr hlast
    simp [hnone] at hconfirmed
  · intro hblocks
    by_contra hne
    obtain ⟨v, hv⟩ := Option.ne_none_iff_exists'.mp hne
    obtain ⟨-, after, hblock, -⟩ := (h.confirmed v).mp hv
    exact hblocks v after hblock

/-- The debouncer against the readings it was given. -/
theorem debouncer_spec {required : ℤ} (h : 1 ≤ required) :
    ∃ d, new required = .ok d ∧ ∀ readings : List Reading,
      (∀ v, (finalState observe d readings).confirmed = some v ↔
        LastBlock Known required.toNat (some v) readings) ∧
      ((finalState observe d readings).confirmed = none ↔
        ∀ v after, ¬ Block required.toNat (some v) readings after) ∧
      (∀ reading, ((finalState observe d readings).observe reading).2 ≠ none ↔
        (finalState observe d (readings ++ [reading])).confirmed ≠
          (finalState observe d readings).confirmed) ∧
      (∀ reading v, ((finalState observe d readings).observe reading).2 = some v →
        (finalState observe d (readings ++ [reading])).confirmed = some v) ∧
      (answers observe d readings).reduceOption.IsChain (· ≠ ·) := by
  let d : PresenceDebouncer := ⟨required.toNat, by omega, none, none, 0⟩
  have hnew : new required = .ok d := by
    rw [new_ok_iff]
    exact ⟨h, Int.toNat_of_nonneg (by omega), rfl, rfl, rfl⟩
  refine ⟨d, hnew, fun readings => ?_⟩
  have hfollows : Follows readings (finalState observe d readings) :=
    follows_run (follows_fresh rfl rfl) readings
  have hrequired : (finalState observe d readings).required = required.toNat :=
    required_run d readings
  have hconfirmed := hfollows.confirmed
  have hnone := hfollows.confirmed_none_iff
  rw [hrequired] at hconfirmed hnone
  refine ⟨hconfirmed, hnone, fun reading => ?_, fun reading v hv => ?_,
    (returned_alternate rfl readings).2⟩
  · rw [finalState_append]
    exact (observe_returns _ reading).1
  · rw [finalState_append]
    have hreturned := (observe_returns (finalState observe d readings) reading).2
      (by rw [hv]; exact Option.some_ne_none v)
    exact hreturned.symm.trans hv

theorem debouncer_spec_default : ∃ d, new requiredConsecutive = .ok d ∧
    ∀ v, (finalState observe d [some true, some true, none, some false]).confirmed = some v ↔
      LastBlock Known 2 (some v) [some true, some true, none, some false] := by
  obtain ⟨d, hnew, hspec⟩ := debouncer_spec (show 1 ≤ requiredConsecutive by decide)
  exact ⟨d, hnew, (hspec _).1⟩

end PresenceDebouncer

end Hologotchi.Presence
