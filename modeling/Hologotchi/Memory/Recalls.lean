import Hologotchi.Memory.Invariant
import Hologotchi.Memory.Keys

/-! Recalls of a stored memory over time: what each one changes, and how far apart they are. -/
namespace Hologotchi.Memory

open Library Library.Table

/-- A call that recalls memories. -/
inductive Recall
  | retrieve (q : Query)
  | spontaneousCallback (limits : CallbackLimits)

def Recall.call (now : ℚ) : Recall → Call
  | .retrieve q => .retrieve now q
  | .spontaneousCallback limits => .spontaneousCallback now limits

/-- One recall, with what the clock reads during it. -/
def recallStep (e : Engine) (s : Store) (r : ℚ × Recall) : Store × Except Error Reply :=
  perform e s (r.2.call r.1)

/-- The store after the first `n` recalls. -/
def storeAfter (e : Engine) (s : Store) (recalls : List (ℚ × Recall)) (n : ℕ) : Store :=
  finalState (recallStep e) s (recalls.take n)

/-- The ids of the memories that a call returns. -/
def returnedIds : Except Error Reply → List ℕ
  | .ok (.records records) => records.map (·.id)
  | .ok (.callback record) => record.toList.map (·.id)
  | .ok (.memoryId _) | .ok (.created _) | .ok (.removed _) | .ok .done | .error _ => []

/-- A row that stays as it is, or is one of those returned and takes the bump of a recall. -/
def BumpedOrSame (ids : List ℕ) (now : ℚ) (row after : Row) : Prop :=
  after = row ∨
    row.id ∈ ids ∧ after = row.recalled (min 100 (row.importance + recallBump)) now

/-- The row with this id is not what it was. -/
def Changed (id : ℕ) (s t : Store) : Prop :=
  ∃ row ∈ s.rows, ∃ after ∈ t.rows, row.id = id ∧ after.id = id ∧ after ≠ row

/-- Every count of recalls starts from zero, and an id tells its row. -/
structure Countable (s : Store) : Prop where
  counts : ∀ row ∈ s.rows, 0 ≤ row.recallCount
  distinct : s.rows.Pairwise (·.id ≠ ·.id)

/-- The row with this id has been recalled, and not before `since`. -/
def RecalledSince (id : ℕ) (since : ℚ) (s : Store) : Prop :=
  ∀ row ∈ s.rows, row.id = id → 0 < row.recallCount ∧ since ≤ row.lastRecalled

variable {e : Engine} {s t : Store} {row after : Row} {id : ℕ} {ids : List ℕ}
  {now since : ℚ} {r : ℚ × Recall}

/-- The rows after a recall, each from the row that was there: one that takes the bump was
never recalled, or not within the cooldown. -/
theorem mem_markRecalled (h : after ∈ (s.markRecalled ids now).rows) : ∃ row ∈ s.rows,
    after.id = row.id ∧ (after = row ∨
      (row.recallCount = 0 ∨ recallCooldownSeconds ≤ now - row.lastRecalled) ∧
        after.recallCount = row.recallCount + 1 ∧ after.lastRecalled = now) := by
  obtain ⟨row, hrow, rfl⟩ := List.mem_map.mp h
  refine ⟨row, hrow, ?_⟩
  split
  next hhit =>
    have hdue : row.recallCount = 0 ∨ recallCooldownSeconds ≤ now - row.lastRecalled := by
      simpa using (Bool.and_eq_true_iff.mp hhit).2
    exact ⟨rfl, .inr ⟨hdue, rfl, rfl⟩⟩
  · exact ⟨rfl, .inl rfl⟩

theorem markRecalled_rows :
    List.Forall₂ (BumpedOrSame ids now) s.rows (s.markRecalled ids now).rows := by
  refine List.forall₂_map_right_iff.mpr (List.forall₂_same.mpr fun row hrow => ?_)
  split
  next hhit =>
    have hreturned : row.id ∈ ids := by simpa using (Bool.and_eq_true_iff.mp hhit).1
    exact .inr ⟨hreturned, rfl⟩
  · exact .inl rfl

/-- A recall marks what it returns, or nothing. -/
theorem recallStep_store : (recallStep e s r).1 = s ∨
    (recallStep e s r).1 = s.markRecalled (returnedIds (recallStep e s r).2) r.1 := by
  obtain ⟨now, call⟩ := r
  cases call with
  | retrieve q =>
    change (settle s .records (s.retrieve e now q)).1 = s ∨
      (settle s .records (s.retrieve e now q)).1 =
        s.markRecalled (returnedIds (settle s .records (s.retrieve e now q)).2) now
    cases hok : s.retrieve e now q with
    | error x => exact .inl rfl
    | ok result => exact (retrieve_ok hok).2
  | spontaneousCallback limits => exact spontaneousCallback_store limits

/-- Each row stays, or takes the bump where its memory was returned. -/
theorem recallStep_rows :
    List.Forall₂ (BumpedOrSame (returnedIds (recallStep e s r).2) r.1) s.rows
      (recallStep e s r).1.rows := by
  rcases recallStep_store (e := e) (s := s) (r := r) with h | h
  · rw [h]
    exact List.forall₂_same.mpr fun _ _ => .inl rfl
  · rw [h]
    exact markRecalled_rows

theorem Countable.markRecalled (h : Countable s) : Countable (s.markRecalled ids now) where
  counts after hafter := by
    obtain ⟨row, hrow, -, rfl | ⟨-, hcount, -⟩⟩ := mem_markRecalled hafter
    · exact h.counts after hrow
    · have hnonneg := h.counts row hrow
      omega
  distinct := by
    refine List.pairwise_map.mpr (h.distinct.imp fun {a b} hab => ?_)
    split <;> split <;> exact hab

/-- What marking rows keeps, a recall keeps. -/
theorem recallStep_keeps {P : Store → Prop} (hmark : ∀ {ids now}, P (s.markRecalled ids now))
    (h : P s) : P (recallStep e s r).1 := by
  rcases recallStep_store (e := e) (s := s) (r := r) with hsame | hmarked
  · rwa [hsame]
  · rw [hmarked]
    exact hmark

theorem Countable.recallStep (h : Countable s) : Countable (recallStep e s r).1 :=
  recallStep_keeps h.markRecalled h

/-- A row that has been recalled is recalled again no earlier. -/
theorem RecalledSince.markRecalled (h : RecalledSince id since s) :
    RecalledSince id since (s.markRecalled ids now) := by
  intro after hafter hid
  obtain ⟨row, hrow, hsameId, hcase⟩ := mem_markRecalled hafter
  obtain ⟨hcount, hsince⟩ := h row hrow (hsameId.symm.trans hid)
  rcases hcase with rfl | ⟨hdue, hbump, hnow⟩
  · exact ⟨hcount, hsince⟩
  · have hcool : recallCooldownSeconds ≤ now - row.lastRecalled := by
      rcases hdue with hzero | hcool
      · omega
      · exact hcool
    have hpos : (0 : ℚ) < recallCooldownSeconds := by norm_num [recallCooldownSeconds]
    exact ⟨by omega, by linarith⟩

theorem RecalledSince.recallStep (h : RecalledSince id since s) :
    RecalledSince id since (recallStep e s r).1 :=
  recallStep_keeps h.markRecalled h

/-- A row that a recall changes was due for it. -/
theorem Changed.bumped (h : Countable s) (hchanged : Changed id s (recallStep e s r).1) :
    ∃ row ∈ s.rows, row.id = id ∧
      (row.recallCount = 0 ∨ recallCooldownSeconds ≤ r.1 - row.lastRecalled) ∧
      ∃ after ∈ (recallStep e s r).1.rows, after.id = id ∧
        after.recallCount = row.recallCount + 1 ∧ after.lastRecalled = r.1 := by
  obtain ⟨row, hrow, after, hafter, hid, hafterId, hne⟩ := hchanged
  rcases recallStep_store (e := e) (s := s) (r := r) with hsame | hmarked
  · rw [hsame] at hafter
    exact absurd (eq_of_id_eq h.distinct hafter hrow (hafterId.trans hid.symm)) hne
  · have hmem := hafter
    rw [hmarked] at hmem
    obtain ⟨old, hold, hsameId, hcase⟩ := mem_markRecalled hmem
    obtain rfl : old = row :=
      eq_of_id_eq h.distinct hold hrow (by rw [← hsameId, hafterId, hid])
    rcases hcase with rfl | ⟨hdue, hcount, hlast⟩
    · exact absurd rfl hne
    · exact ⟨old, hrow, hid, hdue, after, hafter, hafterId, hcount, hlast⟩

theorem Changed.recalledSince (h : Countable s) (hchanged : Changed id s (recallStep e s r).1) :
    RecalledSince id r.1 (recallStep e s r).1 := by
  obtain ⟨row, hrow, -, -, after, hafter, hid, hcount, hlast⟩ := hchanged.bumped h
  intro other hother hotherId
  obtain rfl : other = after :=
    eq_of_id_eq h.recallStep.distinct hother hafter (hotherId.trans hid.symm)
  have hnonneg := h.counts row hrow
  exact ⟨by omega, hlast.ge⟩

/-- A row that was recalled changes only after the cooldown. -/
theorem Changed.cooled (h : Countable s) (hsince : RecalledSince id since s)
    (hchanged : Changed id s (recallStep e s r).1) : recallCooldownSeconds ≤ r.1 - since := by
  obtain ⟨row, hrow, hid, hdue, -⟩ := hchanged.bumped h
  obtain ⟨hcount, hlast⟩ := hsince row hrow hid
  rcases hdue with hzero | hcool
  · omega
  · linarith

/-- Whatever was called before, the store can be counted in. -/
theorem countable_run (e : Engine) (writesEnabled : Bool) (calls : List Call) :
    Countable (finalState (perform e) { writesEnabled := writesEnabled } calls) where
  counts row hrow := ((memories_sound e writesEnabled calls).each row hrow).recallCount_nonneg
  distinct := (keyed_run e writesEnabled calls).pairwise

/-- Two changes of one row in a run of recalls are the cooldown apart. -/
theorem changes_apart {recalls : List (ℚ × Recall)} {m n : ℕ} {first second : ℚ × Recall}
    (h : Countable s) (hmn : m < n) (hfirst : recalls[m]? = some first)
    (hsecond : recalls[n]? = some second)
    (hm : Changed id (storeAfter e s recalls m) (storeAfter e s recalls (m + 1)))
    (hn : Changed id (storeAfter e s recalls n) (storeAfter e s recalls (n + 1))) :
    recallCooldownSeconds ≤ second.1 - first.1 := by
  rw [storeAfter, storeAfter, finalState_take_succ hfirst] at hm
  rw [storeAfter, storeAfter, finalState_take_succ hsecond] at hn
  exact events_related (P := Countable) (E := fun s r => Changed id s (recallStep e s r).1)
    (M := fun r s => RecalledSince id r.1 s)
    (R := fun first second => recallCooldownSeconds ≤ second.1 - first.1)
    (fun _ _ h => h.recallStep) (fun _ _ h hchanged => hchanged.recalledSince h)
    (fun _ _ _ hsince => hsince.recallStep)
    (fun _ _ _ h hsince hchanged => hchanged.cooled h hsince) h hmn hfirst hm hn

/-- In any run of recalls on any store, each recall leaves every row in its place and as it is,
but for returned rows that take exactly one bump; and the changes of one row are the cooldown
apart. -/
theorem recalls_apart (e : Engine) (writesEnabled : Bool) (calls : List Call)
    (recalls : List (ℚ × Recall)) :
    let s := finalState (perform e) { writesEnabled := writesEnabled } calls
    (∀ n r, recalls[n]? = some r →
      List.Forall₂
        (BumpedOrSame (returnedIds (recallStep e (storeAfter e s recalls n) r).2) r.1)
        (storeAfter e s recalls n).rows (storeAfter e s recalls (n + 1)).rows) ∧
    ∀ m n first second id, m < n → recalls[m]? = some first → recalls[n]? = some second →
      Changed id (storeAfter e s recalls m) (storeAfter e s recalls (m + 1)) →
      Changed id (storeAfter e s recalls n) (storeAfter e s recalls (n + 1)) →
      recallCooldownSeconds ≤ second.1 - first.1 := by
  intro s
  have hs : Countable s := countable_run e writesEnabled calls
  constructor
  · intro n r hr
    have hnext : storeAfter e s recalls (n + 1) =
        (recallStep e (storeAfter e s recalls n) r).1 := finalState_take_succ hr
    rw [hnext]
    exact recallStep_rows
  · intro m n first second id hmn hfirst hsecond hm hn
    exact changes_apart hs hmn hfirst hsecond hm hn

/-- A callback bumps a row at once, not within the cooldown, and again after it. -/
example :
    let row : Row := ⟨1, 0, [], .episodic, [], [], 0, 0, 95, 0, 0⟩
    let callback := Recall.spontaneousCallback ⟨.finite 0, .finite 0⟩
    (storeAfter (Engine.stable fun _ => 1) { rows := [row] }
      [(0, callback), (299, callback), (300, callback)] 3).rows.map
        (fun r => (r.importance, r.recallCount)) = [(100, 2)] := by
  decide +kernel

end Hologotchi.Memory
