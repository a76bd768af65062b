import Hologotchi.Library.Portions
import Hologotchi.PetLoop.Model
import Mathlib.Data.Rat.Floor

/-! Waiting for the next event (`_next_event` in `host/pet_loop.py`). -/
namespace Hologotchi.Inputs.HostInputQueue

open Python

/-- An item another thread puts; a presence signal is marked as pending before. -/
def receive (q : HostInputQueue) (item : HostInput) : HostInputQueue :=
  if item.source = str presenceSignalSource then
    { q with items := q.items ++ [item], presencePending := true }
  else { q with items := q.items ++ [item] }

def getNowait (q : HostInputQueue) : Option HostInput × HostInputQueue :=
  match q.items with
  | [] => (none, q)
  | item :: items => (some item, { q with items }.consume item)

/-- `wait`, with what other threads put until its time is over. It returns with the first item
there is, and what comes later stays. -/
def wait (q : HostInputQueue) : List HostInput → Option HostInput × HostInputQueue
  | [] => q.getNowait
  | arrival :: arrivals =>
    match q.getNowait with
    | (none, q) => (q.receive arrival).wait arrivals
    | (some item, q) => (some item, (arrival :: arrivals).foldl receive q)

variable {q : HostInputQueue} {item : HostInput} {items : List HostInput}

@[simp] theorem items_receive (q : HostInputQueue) (item : HostInput) :
    (q.receive item).items = q.items ++ [item] := by
  unfold receive
  split <;> rfl

theorem items_foldl_receive (q : HostInputQueue) (items : List HostInput) :
    (items.foldl receive q).items = q.items ++ items := by
  induction items generalizing q with
  | nil => simp
  | cons item items ih => simp [ih]

theorem getNowait_empty (h : q.items = []) : q.getNowait = (none, q) := by
  rw [getNowait, h]

theorem getNowait_queued (h : q.items = item :: items) :
    ∃ q', q.getNowait = (some item, q') ∧ q'.items = items := by
  rw [getNowait, h]
  exact ⟨_, rfl, items_consume _ item⟩

/-- Waiting at an empty queue takes the first item that comes. -/
theorem wait_arrival (h : q.items = []) (item : HostInput) (later : List HostInput) :
    ∃ q', q.wait (item :: later) = (some item, q') ∧ q'.items = later := by
  have hqueued : (q.receive item).items = [item] := by simp [h]
  obtain ⟨q', hget, hitems⟩ := getNowait_queued hqueued
  rw [wait, getNowait_empty h]
  cases later with
  | nil => exact ⟨q', hget, hitems⟩
  | cons arrival arrivals =>
    refine ⟨(arrival :: arrivals).foldl receive q', ?_, ?_⟩
    · simp only [wait, hget]
    · rw [items_foldl_receive, hitems, List.nil_append]

end Hologotchi.Inputs.HostInputQueue

namespace Hologotchi.PetLoop

open Inputs Library Portions

def keepaliveIntervalSeconds : ℚ := 15

/-- What `_next_event` does while it waits: `sleep` or `wait` for a chunk, or call `keepalive`. -/
inductive WaitAct
  | chunk (seconds : ℚ)
  | keepalive
  deriving DecidableEq, Repr

/-- What `_next_event` returns, what it did, and the queue it leaves. -/
structure Waited where
  event : Option LoopEvent
  acts : List WaitAct
  queue : Option HostInputQueue

/-- The loop of `_next_event`. Other threads put `arrivals i` into the queue up to the end of the
`i`-th chunk. Without a queue there is nothing but the `sleep`. -/
def waitLoop (chunked : Bool) (arrivals : ℕ → List HostInput) (queue : Option HostInputQueue)
    (i : ℕ) (remaining : ℚ) : Waited :=
  if _hend : remaining ≤ 0 then ⟨none, [], queue⟩
  else
    let chunk := if chunked then min keepaliveIntervalSeconds remaining else remaining
    match queue.map (·.wait (arrivals i)) with
    | some (some item, q) => ⟨some (.ofInput item), [.chunk chunk], some q⟩
    | other =>
      let rest := waitLoop chunked arrivals (other.map Prod.snd) (i + 1) (remaining - chunk)
      let pings := if chunked ∧ 0 < remaining - chunk then [.keepalive] else []
      { rest with acts := .chunk chunk :: (pings ++ rest.acts) }
termination_by count keepaliveIntervalSeconds remaining
decreasing_by
  have hpos : 0 < remaining := not_le.mp _hend
  have hcap : 0 < keepaliveIntervalSeconds := by norm_num [keepaliveIntervalSeconds]
  refine count_sub_lt hcap hpos ?_
  cases chunked with
  | true => exact le_rfl
  | false => exact min_le_right _ _

def nextEvent (waitSeconds : ℚ) (queue : Option HostInputQueue) (chunked : Bool)
    (arrivals : ℕ → List HostInput) : Waited :=
  match queue.map (·.getNowait) with
  | some (some item, q) => ⟨some (.ofInput item), [], some q⟩
  | other => waitLoop chunked arrivals (other.map Prod.snd) 0 waitSeconds

/-- Wait for the chunks one by one, with a keepalive between two of them. -/
def waitChunks (arrivals : ℕ → List HostInput) (queue : Option HostInputQueue) :
    ℕ → List ℚ → Waited
  | _, [] => ⟨none, [], queue⟩
  | i, chunk :: chunks =>
    match queue.map (·.wait (arrivals i)) with
    | some (some item, q) => ⟨some (.ofInput item), [.chunk chunk], some q⟩
    | other =>
      let rest := waitChunks arrivals (other.map Prod.snd) (i + 1) chunks
      let pings := if chunks = [] then [] else [.keepalive]
      { rest with acts := .chunk chunk :: (pings ++ rest.acts) }

variable {arrivals : ℕ → List HostInput} {queue : Option HostInputQueue} {q : HostInputQueue}
  {i k : ℕ} {remaining : ℚ} {chunks : List ℚ} {item : HostInput} {later : List HostInput}

theorem keepaliveInterval_pos : 0 < keepaliveIntervalSeconds := by
  norm_num [keepaliveIntervalSeconds]

theorem waitLoop_unchunked (h : 0 < remaining) :
    waitLoop false arrivals queue i remaining = waitChunks arrivals queue i [remaining] := by
  have hend (queue : Option HostInputQueue) :
      waitLoop false arrivals queue (i + 1) (remaining - remaining) = ⟨none, [], queue⟩ := by
    rw [waitLoop, dif_pos (by simp)]
  rw [waitLoop, dif_neg (not_le.mpr h)]
  simp only [Bool.false_eq_true, if_false, hend, false_and, waitChunks, if_true]

theorem waitLoop_chunked (h : 0 < remaining) : waitLoop true arrivals queue i remaining =
    waitChunks arrivals queue i (portions keepaliveIntervalSeconds remaining) := by
  refine portions_induction (P := fun remaining => ∀ queue i, waitLoop true arrivals queue i
    remaining = waitChunks arrivals queue i (portions keepaliveIntervalSeconds remaining))
    keepaliveInterval_pos ?_ ?_ h queue i
  · intro remaining h hle queue i
    have hend (queue : Option HostInputQueue) :
        waitLoop true arrivals queue (i + 1) (remaining - remaining) = ⟨none, [], queue⟩ := by
      rw [waitLoop, dif_pos (by simp)]
    have hlast : ¬ 0 < remaining - remaining := by simp
    rw [portions_of_le keepaliveInterval_pos h hle, waitLoop, dif_neg (not_le.mpr h)]
    simp only [if_true, min_eq_right hle, hend, hlast, and_false, if_false, waitChunks]
  · intro remaining hlt ih queue i
    have hpos : 0 < remaining := keepaliveInterval_pos.trans hlt
    have hmore : 0 < remaining - keepaliveIntervalSeconds := sub_pos.mpr hlt
    rw [portions_of_lt keepaliveInterval_pos hlt, waitLoop, dif_neg (not_le.mpr hpos)]
    simp only [if_true, min_eq_left hlt.le, ih, hmore, and_self, waitChunks,
      if_neg (portions_ne_nil _ _)]

/-- The chunks with a keepalive between every two of them. -/
def schedule (chunks : List ℚ) : List WaitAct :=
  (chunks.map WaitAct.chunk).intersperse .keepalive

theorem schedule_cons (chunk : ℚ) (chunks : List ℚ) : schedule (chunk :: chunks) =
    .chunk chunk :: ((if chunks = [] then [] else [.keepalive]) ++ schedule chunks) := by
  cases chunks with
  | nil => rfl
  | cons next chunks => rfl

theorem wait_silent (h : ∀ q ∈ queue, q.items = [] ∧ arrivals i = []) :
    queue.map (·.wait (arrivals i)) = queue.map (none, ·) := by
  cases queue with
  | none => rfl
  | some q =>
    obtain ⟨hempty, hsilent⟩ := h q rfl
    rw [Option.map_some, Option.map_some, hsilent, HostInputQueue.wait,
      HostInputQueue.getNowait_empty hempty]

theorem waitChunks_silent_cons {chunk : ℚ} (h : ∀ q ∈ queue, q.items = [] ∧ arrivals i = []) :
    waitChunks arrivals queue i (chunk :: chunks) =
      { waitChunks arrivals queue (i + 1) chunks with
        acts := .chunk chunk :: ((if chunks = [] then [] else [.keepalive]) ++
          (waitChunks arrivals queue (i + 1) chunks).acts) } := by
  rw [waitChunks, wait_silent h]
  cases queue with
  | none => rfl
  | some q => rfl

/-- Without an arrival the wait takes all chunks. -/
theorem waitChunks_silent
    (h : ∀ q ∈ queue, q.items = [] ∧ ∀ j < chunks.length, arrivals (i + j) = []) :
    waitChunks arrivals queue i chunks = ⟨none, schedule chunks, queue⟩ := by
  induction chunks generalizing i with
  | nil => rfl
  | cons chunk chunks ih =>
    have hnow : ∀ q ∈ queue, q.items = [] ∧ arrivals i = [] := by
      intro q hq
      exact ⟨(h q hq).1, (h q hq).2 0 (by simp)⟩
    have hlater : ∀ q ∈ queue, q.items = [] ∧ ∀ j < chunks.length, arrivals (i + 1 + j) = [] := by
      intro q hq
      refine ⟨(h q hq).1, fun j hj => ?_⟩
      rw [Nat.add_assoc, Nat.add_comm 1]
      exact (h q hq).2 (j + 1) (by simpa using hj)
    rw [waitChunks_silent_cons hnow, ih hlater, schedule_cons]

/-- The first arrival ends the wait with its chunk, and is taken alone. -/
theorem waitChunks_arrival (hempty : q.items = []) (hk : k < chunks.length)
    (hbefore : ∀ j < k, arrivals (i + j) = []) (harrival : arrivals (i + k) = item :: later) :
    ∃ q', waitChunks arrivals (some q) i chunks =
      ⟨some (.ofInput item), schedule (chunks.take (k + 1)), some q'⟩ ∧ q'.items = later := by
  induction chunks generalizing i k with
  | nil => simp at hk
  | cons chunk chunks ih =>
    cases k with
    | zero =>
      obtain ⟨q', hwait, hitems⟩ := HostInputQueue.wait_arrival hempty item later
      refine ⟨q', ?_, hitems⟩
      rw [Nat.add_zero] at harrival
      rw [waitChunks, Option.map_some, harrival, hwait]
      rfl
    | succ k =>
      have hnow : ∀ p ∈ some q, p.items = [] ∧ arrivals i = [] := by
        intro p hp
        obtain rfl := Option.some.inj hp
        exact ⟨hempty, hbefore 0 (by omega)⟩
      have hnext : chunks ≠ [] := by
        rintro rfl
        simp at hk
      have htaken : chunks.take (k + 1) ≠ [] := by simpa using hnext
      obtain ⟨q', hrest, hitems⟩ := ih (i := i + 1) (k := k) (by simpa using hk)
        (fun j hj => by
          rw [Nat.add_assoc, Nat.add_comm 1]
          exact hbefore (j + 1) (by omega))
        (by rw [Nat.add_assoc, Nat.add_comm 1]; exact harrival)
      refine ⟨q', ?_, hitems⟩
      rw [waitChunks_silent_cons hnow, hrest, List.take_succ_cons, schedule_cons, if_neg hnext,
        if_neg htaken]

/-- The chunks of a wait. -/
def waitPlan (chunked : Bool) (waitSeconds : ℚ) : List ℚ :=
  if chunked then portions keepaliveIntervalSeconds waitSeconds else [waitSeconds]

theorem nextEvent_queued {items : List HostInput} {chunked : Bool}
    (h : q.items = item :: items) :
    ∃ q', nextEvent remaining (some q) chunked arrivals =
      ⟨some (.ofInput item), [], some q'⟩ ∧ q'.items = items := by
  obtain ⟨q', hget, hitems⟩ := HostInputQueue.getNowait_queued h
  refine ⟨q', ?_, hitems⟩
  simp only [nextEvent, Option.map_some, hget]

theorem nextEvent_empty {chunked : Bool} (hwait : 0 < remaining)
    (h : ∀ q ∈ queue, q.items = []) : nextEvent remaining queue chunked arrivals =
      waitChunks arrivals queue 0 (waitPlan chunked remaining) := by
  have hloop : nextEvent remaining queue chunked arrivals =
      waitLoop chunked arrivals queue 0 remaining := by
    cases queue with
    | none => rfl
    | some q => simp only [nextEvent, Option.map_some, HostInputQueue.getNowait_empty (h q rfl)]
  rw [hloop]
  cases chunked with
  | true => exact waitLoop_chunked hwait
  | false => exact waitLoop_unchunked hwait

/-- A wait has a plan of chunks of which it takes what the arrivals leave it: all of them when
nothing arrives, those up to the first arrival, and none when an item is queued. -/
theorem nextEvent_follows_plan {waitSeconds : ℚ} (hwait : 0 < waitSeconds) (chunked : Bool) :
    ∃ plan : List ℚ, plan.sum = waitSeconds ∧ (∀ chunk ∈ plan, 0 < chunk) ∧
      (chunked = true → ∀ chunk ∈ plan, chunk ≤ keepaliveIntervalSeconds) ∧
      (chunked = false → plan = [waitSeconds]) ∧
      (∀ queue arrivals,
        (∀ q ∈ queue, q.items = [] ∧ ∀ i < plan.length, arrivals i = []) →
          nextEvent waitSeconds queue chunked arrivals = ⟨none, schedule plan, queue⟩) ∧
      (∀ q arrivals i item later, q.items = [] → i < plan.length → (∀ j < i, arrivals j = []) →
        arrivals i = item :: later →
          ∃ q', nextEvent waitSeconds (some q) chunked arrivals =
            ⟨some (.ofInput item), schedule (plan.take (i + 1)), some q'⟩ ∧ q'.items = later) ∧
      ∀ q arrivals item items, q.items = item :: items →
        ∃ q', nextEvent waitSeconds (some q) chunked arrivals =
          ⟨some (.ofInput item), [], some q'⟩ ∧ q'.items = items := by
  refine ⟨waitPlan chunked waitSeconds, ?_, ?_, ?_, ?_, ?_, ?_, ?_⟩
  · cases chunked with
    | true => exact sum_portions _ _
    | false => exact List.sum_singleton
  · cases chunked with
    | true => exact fun chunk hchunk => (portions_bounds keepaliveInterval_pos hwait chunk hchunk).1
    | false => simpa [waitPlan] using hwait
  · rintro rfl chunk hchunk
    exact (portions_bounds keepaliveInterval_pos hwait chunk hchunk).2
  · rintro rfl
    rfl
  · intro queue arrivals hsilent
    rw [nextEvent_empty hwait fun q hq => (hsilent q hq).1]
    exact waitChunks_silent fun q hq => by simpa using hsilent q hq
  · intro q arrivals i item later hempty hi hbefore harrival
    rw [nextEvent_empty hwait fun p hp => Option.some.inj hp ▸ hempty]
    exact waitChunks_arrival hempty hi (by simpa using hbefore) (by simpa using harrival)
  · intro q arrivals item items hqueued
    exact nextEvent_queued hqueued

theorem nextEvent_follows_plan_forty : ∃ plan : List ℚ, plan.sum = 40 ∧
    (∀ chunk ∈ plan, 0 < chunk ∧ chunk ≤ keepaliveIntervalSeconds) ∧
    nextEvent 40 none true (fun _ => []) = ⟨none, schedule plan, none⟩ := by
  obtain ⟨plan, hsum, hpos, hcap, -, hsilent, -⟩ :=
    nextEvent_follows_plan (show (0 : ℚ) < 40 by norm_num) true
  exact ⟨plan, hsum, fun chunk hchunk => ⟨hpos chunk hchunk, hcap rfl chunk hchunk⟩,
    hsilent none _ (by simp)⟩

end Hologotchi.PetLoop
