import Hologotchi.Protocol
import Hologotchi.Rust
import Hologotchi.Library.Fallible
import Hologotchi.Library.Spans
import Mathlib.Data.Nat.ModEq

/-! The pose an animation shows at a frame (`timed_pose` and `frame_for` of
`device/src/render.rs`). Sprite coordinates are unbounded integers. -/
namespace Hologotchi.Render

open Protocol Rust Library Library.Spans

inductive PoseId
  | idle00
  | blink01
  | excited01
  | happyWag00
  | happyWag01
  | nap00
  | alert00
  | confused00
  | worried00
  | excited02
  | listen00
  | lookLeft
  | lookRight
  | play00
  | alert01
  | sleepy00
  | idle01
  | idle02
  | blink00
  | blink02
  | lookCenter
  | happyWag02
  | excited00
  | play01
  | sleepy01
  | nap01
  | worried01
  | confused01
  | walkLeft00
  | walkLeft01
  | walkRight00
  | walkRight01
  deriving DecidableEq, Repr

structure TimedPose where
  pose : PoseId
  frames : UInt8
  x : ℤ
  y : ℤ
  deriving DecidableEq, Repr

def idleLoop : List TimedPose := [⟨.idle00, 34, 0, 0⟩, ⟨.idle01, 26, 0, 0⟩, ⟨.idle02, 30, 0, 0⟩]

def blinkLoop : List TimedPose := [⟨.blink00, 2, 0, 0⟩, ⟨.blink01, 3, 0, 0⟩, ⟨.blink02, 2, 0, 0⟩]

def lookLoop : List TimedPose :=
  [⟨.lookCenter, 10, 0, 0⟩, ⟨.lookLeft, 14, -1, 0⟩, ⟨.listen00, 8, 0, 0⟩, ⟨.lookRight, 14, 1, 0⟩,
    ⟨.listen00, 8, 0, 0⟩, ⟨.lookCenter, 8, 0, 0⟩]

def happyLoop : List TimedPose :=
  [⟨.happyWag00, 6, -1, 0⟩, ⟨.happyWag02, 5, 0, -2⟩, ⟨.happyWag01, 6, 1, 0⟩,
    ⟨.happyWag02, 5, 0, -2⟩]

def excitedLoop : List TimedPose :=
  [⟨.excited00, 5, 0, 0⟩, ⟨.excited01, 4, 0, -2⟩, ⟨.excited02, 6, 0, 1⟩]

def playLoop : List TimedPose := [⟨.play00, 10, 0, 0⟩, ⟨.play01, 10, 1, -1⟩]

def sleepyLoop : List TimedPose := [⟨.sleepy00, 42, 0, 0⟩, ⟨.sleepy01, 42, 0, 0⟩]

def napLoop : List TimedPose := [⟨.nap00, 58, 0, 0⟩, ⟨.nap01, 58, 0, 0⟩]

def worriedLoop : List TimedPose := [⟨.worried00, 28, 0, 0⟩, ⟨.worried01, 28, -1, 0⟩]

def confusedLoop : List TimedPose := [⟨.confused00, 18, -1, 0⟩, ⟨.confused01, 18, 1, 0⟩]

def alertLoop : List TimedPose := [⟨.alert00, 7, 0, -1⟩, ⟨.alert01, 7, 0, 0⟩]

def walkRightLoop : List TimedPose := [⟨.walkRight00, 8, 0, 0⟩, ⟨.walkRight01, 8, 0, -1⟩]

def walkLeftLoop : List TimedPose := [⟨.walkLeft00, 8, 0, 0⟩, ⟨.walkLeft01, 8, 0, -1⟩]

/-- The sum of the frame counts, carried on from `total`. -/
def frameTotal (checks : Bool) : UInt32 → List TimedPose → Except Panic UInt32
  | total, [] => .ok total
  | total, pose :: poses => do frameTotal checks (← addU32 checks total pose.frames.toUInt32) poses

/-- The loop of `timed_pose`. It ends without a pose if the phase outlasts them all. -/
def poseAt (checks : Bool) : UInt32 → List TimedPose → Except Panic (Option TimedPose)
  | _, [] => .ok none
  | phase, pose :: poses =>
    if phase < pose.frames.toUInt32 then .ok (some pose)
    else do poseAt checks (← subU32 checks phase pose.frames.toUInt32) poses

def timedPose (checks : Bool) (frame : UInt32) (poses : List TimedPose) :
    Except Panic TimedPose := do
  let total ← frameTotal checks 0 poses
  match ← poseAt checks (frame % max total 1) poses, poses with
  | some pose, _ => .ok pose
  | none, first :: _ => .ok first
  | none, [] => .error .indexOutOfBounds

/-- The frame count of a pose as a plain number. -/
def TimedPose.count (p : TimedPose) : ℕ := p.frames.toNat

variable {checks : Bool} {frame : UInt32} {poses : List TimedPose}

theorem total_count_cons (pose : TimedPose) (poses : List TimedPose) :
    total TimedPose.count (pose :: poses) =
      pose.frames.toUInt32.toNat + total TimedPose.count poses := by
  simp [TimedPose.count]

/-- The counts are summed without overflow while their sum fits. -/
theorem frameTotal_ok {acc : UInt32} (h : acc.toNat + total TimedPose.count poses < 2 ^ 32) :
    frameTotal checks acc poses = .ok (acc + UInt32.ofNat (total TimedPose.count poses)) := by
  induction poses generalizing acc with
  | nil => simp [frameTotal]
  | cons pose poses ih =>
    rw [total_count_cons] at h ⊢
    have hadd : acc.toNat + pose.frames.toUInt32.toNat < 2 ^ 32 := by omega
    have hacc : (acc + pose.frames.toUInt32).toNat =
        acc.toNat + pose.frames.toUInt32.toNat := by
      rw [UInt32.toNat_add, Nat.mod_eq_of_lt hadd]
    have hrest : frameTotal checks (acc + pose.frames.toUInt32) poses =
        .ok (acc + pose.frames.toUInt32 + UInt32.ofNat (total TimedPose.count poses)) :=
      ih (by omega)
    calc frameTotal checks acc (pose :: poses)
        = frameTotal checks (acc + pose.frames.toUInt32) poses := by
          rw [frameTotal, addU32_ok hadd]
          rfl
      _ = .ok (acc + UInt32.ofNat (pose.frames.toUInt32.toNat + total TimedPose.count poses)) := by
          rw [hrest, UInt32.ofNat_add, UInt32.ofNat_toNat, UInt32.add_assoc]

/-- Without overflow checks the sum is kept modulo `2 ^ 32`. -/
theorem frameTotal_wraps (acc : UInt32) (poses : List TimedPose) :
    frameTotal false acc poses = .ok (acc + UInt32.ofNat (total TimedPose.count poses)) := by
  induction poses generalizing acc with
  | nil => simp [frameTotal]
  | cons pose poses ih =>
    rw [frameTotal, addU32_wraps, total_count_cons, UInt32.ofNat_add, UInt32.ofNat_toNat,
      ← UInt32.add_assoc]
    exact ih _

/-- With them a sum that does not fit is a panic. -/
theorem frameTotal_overflows {acc : UInt32}
    (h : 2 ^ 32 ≤ acc.toNat + total TimedPose.count poses) :
    frameTotal true acc poses = .error .overflow := by
  induction poses generalizing acc with
  | nil =>
    have hacc := acc.toNat_lt
    rw [total_nil] at h
    omega
  | cons pose poses ih =>
    rw [total_count_cons] at h
    rcases Nat.lt_or_ge (acc.toNat + pose.frames.toUInt32.toNat) (2 ^ 32) with hadd | hover
    · rw [frameTotal, addU32_ok hadd]
      apply ih
      rw [UInt32.toNat_add, Nat.mod_eq_of_lt hadd]
      omega
    · rw [frameTotal, addU32_overflows hover]
      rfl

/-- The loop never subtracts more than the phase has left. -/
theorem poseAt_eq (checks : Bool) (phase : UInt32) (poses : List TimedPose) :
    poseAt checks phase poses = .ok (locate TimedPose.count phase.toNat poses) := by
  induction poses generalizing phase with
  | nil => rfl
  | cons pose poses ih =>
    have hcount : pose.frames.toUInt32.toNat = pose.count := by simp [TimedPose.count]
    have hlt : phase < pose.frames.toUInt32 ↔ phase.toNat < pose.count := by
      rw [UInt32.lt_iff_toNat_lt, hcount]
    by_cases h : phase < pose.frames.toUInt32
    · simp [poseAt, locate, h, hlt.mp h]
    · have hle : pose.frames.toUInt32 ≤ phase := UInt32.not_lt.mp h
      have hsub : (phase - pose.frames.toUInt32).toNat = phase.toNat - pose.count := by
        rw [UInt32.toNat_sub_of_le _ _ hle, hcount]
      simp only [poseAt, locate, if_neg h, if_neg (mt hlt.mpr h), subU32_ok hle, ← hsub]
      exact ih _

/-- The phase `timed_pose` starts its loop with. -/
theorem phase_toNat {sum : UInt32} (hsum : 0 < sum.toNat) :
    (frame % max sum 1).toNat = frame.toNat % sum.toNat := by
  have hmax : max sum 1 = sum := by
    change (if sum ≤ 1 then 1 else sum) = sum
    split
    · rename_i hle
      rw [UInt32.le_iff_toNat_le, UInt32.toNat_one] at hle
      apply UInt32.toNat_inj.mp
      rw [UInt32.toNat_one]
      omega
    · rfl
  rw [hmax, UInt32.toNat_mod]

/-- The loop ends with the pose that covers the frame, and never falls through. -/
theorem poseAt_of_covers {sum : UInt32} (hsum : sum.toNat = total TimedPose.count poses)
    {i : Fin poses.length}
    (hi : Covers TimedPose.count poses (frame.toNat % total TimedPose.count poses) i) :
    poseAt checks (frame % max sum 1) poses = .ok (some poses[i]) := by
  have hpos : 0 < sum.toNat := by
    have hphase := lt_total_of_covers hi
    omega
  rw [poseAt_eq, phase_toNat hpos, hsum, locate_of_covers hi]

theorem timedPose_of_loop {sum : UInt32} {pose : TimedPose}
    (hsum : frameTotal checks 0 poses = .ok sum)
    (hloop : poseAt checks (frame % max sum 1) poses = .ok (some pose)) :
    timedPose checks frame poses = .ok pose := by
  have hbody : timedPose checks frame poses = (do
      match ← poseAt checks (frame % max sum 1) poses, poses with
      | some pose, _ => .ok pose
      | none, first :: _ => .ok first
      | none, [] => .error .indexOutOfBounds) := by
    rw [timedPose, hsum]
    rfl
  rw [hbody, hloop]
  rfl

/-- A list of poses as the tables of the animations are. -/
structure WellTimed (poses : List TimedPose) : Prop where
  nonempty : poses ≠ []
  positive : ∀ p ∈ poses, 0 < p.frames
  fits : total TimedPose.count poses < 2 ^ 32

theorem WellTimed.total_pos (h : WellTimed poses) : 0 < total TimedPose.count poses :=
  Spans.total_pos h.nonempty fun p hp => UInt8.lt_iff_toNat_lt.mp (h.positive p hp)

/-- The sum `timed_pose` works with is the sum of the counts. -/
theorem WellTimed.frameTotal (h : WellTimed poses) :
    ∃ sum, frameTotal checks 0 poses = .ok sum ∧ sum.toNat = total TimedPose.count poses := by
  refine ⟨_, frameTotal_ok (by simpa using h.fits), ?_⟩
  rw [UInt32.zero_add, UInt32.toNat_ofNat_of_lt' h.fits]

/-- `timed_pose` selects by prefix sums. There is one pose whose frames the frame falls into,
counted over and over from the first pose on, and that pose is the one returned, with overflow
checks and without. The loop ends with it, so the fallback behind the loop is never taken. -/
theorem timedPose_prefix_sums (checks : Bool) (frame : UInt32) (poses : List TimedPose)
    (hposes : poses ≠ []) (hpos : ∀ p ∈ poses, 0 < p.frames)
    (hfits : total TimedPose.count poses < 2 ^ 32) :
    (∃! i : Fin poses.length,
      Covers TimedPose.count poses (frame.toNat % total TimedPose.count poses) i) ∧
    (∀ i : Fin poses.length,
      Covers TimedPose.count poses (frame.toNat % total TimedPose.count poses) i →
        (∃ sum, frameTotal checks 0 poses = .ok sum ∧
          poseAt checks (frame % max sum 1) poses = .ok (some poses[i])) ∧
        timedPose checks frame poses = .ok poses[i]) ∧
    ∀ later : UInt32, later.toNat ≡ frame.toNat [MOD total TimedPose.count poses] →
      timedPose checks later poses = timedPose checks frame poses := by
  have h : WellTimed poses := ⟨hposes, hpos, hfits⟩
  obtain ⟨sum, hsum, htotal⟩ : ∃ sum, frameTotal checks 0 poses = .ok sum ∧
      sum.toNat = total TimedPose.count poses := h.frameTotal
  have hpose (f : UInt32) (i : Fin poses.length)
      (hi : Covers TimedPose.count poses (f.toNat % total TimedPose.count poses) i) :
      timedPose checks f poses = .ok poses[i] :=
    timedPose_of_loop hsum (poseAt_of_covers htotal hi)
  obtain ⟨i, hi, -⟩ := exists_covers (Nat.mod_lt frame.toNat h.total_pos)
  refine ⟨⟨i, hi, fun j hj => covers_unique hj hi⟩, ?_, ?_⟩
  · intro j hj
    exact ⟨⟨sum, hsum, poseAt_of_covers htotal hj⟩, hpose frame j hj⟩
  · intro later hlater
    have hi' : Covers TimedPose.count poses (later.toNat % total TimedPose.count poses) i := by
      rw [hlater]
      exact hi
    exact (hpose later i hi').trans (hpose frame i hi).symm

/-- The last frame of the look-around before the counter of frames wraps around. -/
theorem timedPose_prefix_sums_look :
    (∃! i : Fin lookLoop.length,
      Covers TimedPose.count lookLoop
        ((4294967295 : UInt32).toNat % total TimedPose.count lookLoop) i) ∧
    (∀ i : Fin lookLoop.length,
      Covers TimedPose.count lookLoop
          ((4294967295 : UInt32).toNat % total TimedPose.count lookLoop) i →
        (∃ sum, frameTotal true 0 lookLoop = .ok sum ∧
          poseAt true (4294967295 % max sum 1) lookLoop = .ok (some lookLoop[i])) ∧
        timedPose true 4294967295 lookLoop = .ok lookLoop[i]) ∧
    ∀ later : UInt32,
      later.toNat ≡ (4294967295 : UInt32).toNat [MOD total TimedPose.count lookLoop] →
        timedPose true later lookLoop = timedPose true 4294967295 lookLoop :=
  timedPose_prefix_sums true 4294967295 lookLoop (by decide) (by decide) (by decide)

/-- A pose of 255 frames before `n` others of 255 frames. -/
def longLoop (n : ℕ) : List TimedPose :=
  ⟨.idle00, 255, 0, 0⟩ :: List.replicate n ⟨.idle01, 255, 0, 0⟩

theorem total_longLoop (n : ℕ) : total TimedPose.count (longLoop n) = 255 + n * 255 := by
  simp [longLoop, total_replicate, TimedPose.count]

theorem mem_longLoop {n : ℕ} {p : TimedPose} (hp : p ∈ longLoop n) : 0 < p.frames := by
  simp only [longLoop, List.mem_cons, List.mem_replicate] at hp
  rcases hp with rfl | ⟨-, rfl⟩ <;> decide

/-- At frame 300 the second pose is due. -/
theorem longLoop_second {n : ℕ} (hn : 0 < n) : ∃ i : Fin (longLoop n).length,
    Covers TimedPose.count (longLoop n)
      ((300 : UInt32).toNat % total TimedPose.count (longLoop n)) i ∧
    (longLoop n)[i] = ⟨.idle01, 255, 0, 0⟩ := by
  obtain ⟨m, rfl⟩ := Nat.exists_eq_succ_of_ne_zero hn.ne'
  have hmod : (300 : UInt32).toNat % total TimedPose.count (longLoop (m + 1)) = 300 := by
    rw [total_longLoop]
    exact Nat.mod_eq_of_lt (by simp; omega)
  refine ⟨⟨1, by simp [longLoop]⟩, ?_, ?_⟩
  · rw [hmod]
    simp [Covers, longLoop, List.replicate_succ, TimedPose.count]
  · simp [longLoop, List.replicate_succ]

theorem longLoop_panics {n : ℕ} (hn : 2 ^ 32 ≤ 255 + n * 255) :
    timedPose true frame (longLoop n) = .error .overflow := by
  have hsum : frameTotal true 0 (longLoop n) = .error .overflow := by
    apply frameTotal_overflows
    rw [total_longLoop, UInt32.toNat_zero]
    omega
  rw [timedPose, hsum]
  rfl

/-- With `16843010` poses of 255 frames the counts sum to `2 ^ 32 + 254`. With overflow checks
the sum panics, and without them the first pose is shown where the second is due. -/
theorem timedPose_wrong_past_u32 :
    longLoop 16843009 ≠ [] ∧ (∀ p ∈ longLoop 16843009, 0 < p.frames) ∧
      (∃ i : Fin (longLoop 16843009).length,
        Covers TimedPose.count (longLoop 16843009)
          ((300 : UInt32).toNat % total TimedPose.count (longLoop 16843009)) i ∧
        (longLoop 16843009)[i] = ⟨.idle01, 255, 0, 0⟩) ∧
      timedPose true 300 (longLoop 16843009) = .error .overflow ∧
      timedPose false 300 (longLoop 16843009) = .ok ⟨.idle00, 255, 0, 0⟩ := by
  refine ⟨List.cons_ne_nil _ _, fun _ => mem_longLoop, longLoop_second (by decide),
    longLoop_panics (by decide), ?_⟩
  have hsum : UInt32.ofNat (total TimedPose.count (longLoop 16843009)) = 254 := by
    rw [total_longLoop]
    decide
  refine timedPose_of_loop (frameTotal_wraps 0 _) ?_
  rw [hsum]
  rfl

end Hologotchi.Render
