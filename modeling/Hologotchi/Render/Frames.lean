import Hologotchi.Render.Poses
import Hologotchi.Render.Scene
import Mathlib.Algebra.Order.Group.Abs

/-! What `draw` makes of the frame counters (`frame_for` and `wave` of `device/src/render.rs`):
which pose, how far off its place, and that nothing panics on the way. -/
namespace Hologotchi.Render

open Protocol Rust Library Fallible

structure SpriteFrame where
  pose : PoseId
  x : ℤ
  y : ℤ
  alertBorder : Bool
  deriving DecidableEq, Repr

/-- A sine wave of 64 steps, scaled by 1024. -/
def sin : Vector ℤ 64 :=
  #v[0, 100, 200, 297, 392, 483, 569, 650, 724, 792, 851, 903, 946, 980, 1004, 1019, 1024, 1019,
    1004, 980, 946, 903, 851, 792, 724, 650, 569, 483, 392, 297, 200, 100, 0, -100, -200, -297,
    -392, -483, -569, -650, -724, -792, -851, -903, -946, -980, -1004, -1019, -1024, -1019, -1004,
    -980, -946, -903, -851, -792, -724, -650, -569, -483, -392, -297, -200, -100]

/-- Half of the temporary patrol loop. -/
def walkHalfPeriod : UInt32 := 110

/-- `usize` has 32 bits on the device, and `/` rounds toward zero. -/
def wave (checks : Bool) (frame speed phase : UInt32) (amplitude : ℤ) : Except Panic ℤ := do
  let idx ← addU32 checks (frame * speed) phase
  have hidx : (idx &&& 63).toNat < 64 := by
    rw [UInt32.toNat_and]
    exact Nat.lt_succ_of_le Nat.and_le_right
  .ok ((sin[(idx &&& 63).toNat] * amplitude).tdiv 1024)

def waveAbs (checks : Bool) (frame speed phase : UInt32) (amplitude : ℤ) : Except Panic ℤ := do
  .ok |← wave checks frame speed phase amplitude|

def frameFor (checks : Bool) (animation : Animation) (globalFrame animFrame : UInt32)
    (forceAlert : Bool) : Except Panic SpriteFrame := do
  let frame : SpriteFrame := ⟨.idle00, 0, ← wave checks globalFrame 1 0 1, forceAlert⟩
  match animation with
  | .idle =>
    let timed ← timedPose checks animFrame idleLoop
    .ok { frame with pose := timed.pose, x := timed.x, y := timed.y }
  | .blink =>
    let timed ← timedPose checks animFrame blinkLoop
    .ok { frame with
      pose := timed.pose, x := timed.x, y := timed.y + (← wave checks globalFrame 1 8 1) }
  | .lookAround =>
    let timed ← timedPose checks animFrame lookLoop
    .ok { frame with
      pose := timed.pose, x := timed.x, y := timed.y + (← wave checks globalFrame 1 16 1) }
  | .confused =>
    let timed ← timedPose checks animFrame confusedLoop
    .ok { frame with
      pose := timed.pose
      x := timed.x + (← wave checks animFrame 5 0 1)
      y := timed.y + (← wave checks animFrame 2 16 1) }
  | .walk =>
    let walkPhase := animFrame % (walkHalfPeriod * 2)
    let walkStep : ℤ := (walkPhase % walkHalfPeriod).toNat
    if walkPhase < walkHalfPeriod then
      let timed ← timedPose checks animFrame walkRightLoop
      .ok { frame with
        pose := timed.pose
        x := -18 + (walkStep * 36).tdiv (walkHalfPeriod.toNat - 1)
        y := timed.y + (← waveAbs checks animFrame 4 0 1) }
    else
      let timed ← timedPose checks animFrame walkLeftLoop
      .ok { frame with
        pose := timed.pose
        x := 18 - (walkStep * 36).tdiv (walkHalfPeriod.toNat - 1)
        y := timed.y + (← waveAbs checks animFrame 4 0 1) }
  | .happy =>
    let timed ← timedPose checks animFrame happyLoop
    .ok { frame with
      pose := timed.pose
      x := timed.x + (← wave checks animFrame 2 0 1)
      y := timed.y - (← waveAbs checks animFrame 4 16 1) }
  | .play =>
    let timed ← timedPose checks animFrame playLoop
    .ok { frame with
      pose := timed.pose
      x := timed.x + (← wave checks animFrame 3 0 1)
      y := timed.y + (← wave checks animFrame 4 16 1) }
  | .excited =>
    let timed ← timedPose checks animFrame excitedLoop
    .ok { frame with
      pose := timed.pose, x := timed.x + (← wave checks animFrame 4 0 1), y := timed.y }
  | .sleepy =>
    let timed ← timedPose checks animFrame sleepyLoop
    .ok { frame with
      pose := timed.pose, x := timed.x, y := 1 + timed.y + (← wave checks animFrame 1 16 1) }
  | .nap =>
    let timed ← timedPose checks animFrame napLoop
    .ok { frame with
      pose := timed.pose
      x := timed.x + (← wave checks animFrame 1 0 1)
      y := timed.y + (← wave checks animFrame 1 16 1) }
  | .worried =>
    let timed ← timedPose checks animFrame worriedLoop
    .ok { frame with
      pose := timed.pose
      x := timed.x + (← wave checks animFrame 3 0 1)
      y := 1 + timed.y + (← wave checks animFrame 1 16 1) }
  | .alert =>
    let timed ← timedPose checks animFrame alertLoop
    .ok {
      pose := timed.pose
      x := timed.x + (← wave checks animFrame 7 0 1)
      y := timed.y - (← waveAbs checks animFrame 7 16 1)
      alertBorder := true }

variable {checks : Bool} {frame speed phase globalFrame animFrame : UInt32} {poses : List TimedPose}
  {animation : Animation} {forceAlert : Bool} {s : Scene}

/-- The tables of poses. -/
def loops : List (List TimedPose) :=
  [idleLoop, blinkLoop, lookLoop, happyLoop, excitedLoop, playLoop, sleepyLoop, napLoop,
    worriedLoop, confusedLoop, alertLoop, walkRightLoop, walkLeftLoop]

theorem wellTimed_of_mem_loops (h : poses ∈ loops) : WellTimed poses := by
  have hall : ∀ poses ∈ loops, poses ≠ [] ∧ (∀ p ∈ poses, 0 < p.frames) ∧
      Spans.total TimedPose.count poses < 2 ^ 32 := by decide
  obtain ⟨hposes, hpos, hfits⟩ := hall poses h
  exact ⟨hposes, hpos, hfits⟩

/-- A table always has a pose to show, and it is drawn close to its place. -/
theorem timedPose_of_mem_loops (checks : Bool) (frame : UInt32) (h : poses ∈ loops) :
    ∃ p, timedPose checks frame poses = .ok p ∧ (-1 ≤ p.x ∧ p.x ≤ 1) ∧ -2 ≤ p.y ∧ p.y ≤ 1 := by
  have htimed := wellTimed_of_mem_loops h
  have hoffsets : ∀ poses ∈ loops, ∀ p ∈ poses, (-1 ≤ p.x ∧ p.x ≤ 1) ∧ -2 ≤ p.y ∧ p.y ≤ 1 := by
    decide
  obtain ⟨sum, hsum, htotal⟩ : ∃ sum, frameTotal checks 0 poses = .ok sum ∧
      sum.toNat = Spans.total TimedPose.count poses := htimed.frameTotal
  obtain ⟨i, hi, -⟩ := Spans.exists_covers (Nat.mod_lt frame.toNat htimed.total_pos)
  exact ⟨poses[i], timedPose_of_loop hsum (poseAt_of_covers htotal hi),
    hoffsets poses h _ (List.getElem_mem _)⟩

/-- The counter of a wave leaves room for its phase, or nobody checks. -/
def Room (checks : Bool) (n : ℕ) : Prop := checks = true → n + 16 < 2 ^ 32

theorem sin_bounds : ∀ k : Fin 64, -1 ≤ (sin[k] * 1).tdiv 1024 ∧ (sin[k] * 1).tdiv 1024 ≤ 1 := by
  decide

theorem wave_ok (hroom : Room checks (frame.toNat * speed.toNat)) (hphase : phase.toNat ≤ 16) :
    ∃ w : ℤ, wave checks frame speed phase 1 = .ok w ∧ -1 ≤ w ∧ w ≤ 1 := by
  have hidx : ∃ idx, addU32 checks (frame * speed) phase = .ok idx := by
    cases checks with
    | false => exact ⟨_, addU32_wraps _ _⟩
    | true =>
      have hmul : (frame * speed).toNat ≤ frame.toNat * speed.toNat := by
        rw [UInt32.toNat_mul]
        exact Nat.mod_le _ _
      have hsum := hroom rfl
      exact ⟨_, addU32_ok (by omega)⟩
  obtain ⟨idx, hidx⟩ := hidx
  have hlt : (idx &&& 63).toNat < 64 := by
    rw [UInt32.toNat_and]
    exact Nat.lt_succ_of_le Nat.and_le_right
  refine ⟨(sin[(idx &&& 63).toNat] * 1).tdiv 1024, ?_, sin_bounds ⟨_, hlt⟩⟩
  rw [wave, hidx]
  rfl

theorem waveAbs_ok (hroom : Room checks (frame.toNat * speed.toNat)) (hphase : phase.toNat ≤ 16) :
    ∃ w : ℤ, waveAbs checks frame speed phase 1 = .ok w ∧ 0 ≤ w ∧ w ≤ 1 := by
  obtain ⟨w, hw, hlow, hhigh⟩ := wave_ok hroom hphase
  refine ⟨|w|, ?_, abs_nonneg w, abs_le.mpr ⟨hlow, hhigh⟩⟩
  rw [waveAbs, hw]
  rfl

/-- A sprite no further off its place than the patrol goes. -/
def SpriteFrame.Near (f : SpriteFrame) : Prop := (-18 ≤ f.x ∧ f.x ≤ 18) ∧ -4 ≤ f.y ∧ f.y ≤ 4

theorem near_iff {pose : PoseId} {x y : ℤ} {alertBorder : Bool} :
    (SpriteFrame.mk pose x y alertBorder).Near ↔ (-18 ≤ x ∧ x ≤ 18) ∧ -4 ≤ y ∧ y ≤ 4 := Iff.rfl

/-- The patrol crosses 36 pixels, from one end to the other. -/
theorem stride_bounds (frame : UInt32) :
    0 ≤ (((frame % walkHalfPeriod).toNat : ℤ) * 36).tdiv (walkHalfPeriod.toNat - 1) ∧
      (((frame % walkHalfPeriod).toNat : ℤ) * 36).tdiv (walkHalfPeriod.toNat - 1) ≤ 36 := by
  have hstep : (frame % walkHalfPeriod).toNat < 110 := by
    rw [UInt32.toNat_mod]
    exact Nat.mod_lt _ (by decide)
  have hlast : ((walkHalfPeriod.toNat : ℤ) - 1) = 109 := by decide
  rw [hlast, Int.tdiv_eq_ediv_of_nonneg (by omega)]
  omega

/-- Whatever the animation, a frame has a pose near its place. -/
theorem frameFor_ok (hglobal : Room checks globalFrame.toNat)
    (hanim : animation ≠ .idle → Room checks (animFrame.toNat * 7)) :
    ∃ f, frameFor checks animation globalFrame animFrame forceAlert = .ok f ∧ f.Near := by
  have hposes (poses : List TimedPose) (h : poses ∈ loops) :=
    timedPose_of_mem_loops checks animFrame h
  have hbreath (phase : UInt32) (h : phase.toNat ≤ 16) :
      ∃ w : ℤ, wave checks globalFrame 1 phase 1 = .ok w ∧ -1 ≤ w ∧ w ≤ 1 :=
    wave_ok (by simpa using hglobal) h
  have hroom (hne : animation ≠ .idle) (speed : UInt32) (hspeed : speed.toNat ≤ 7) :
      Room checks (animFrame.toNat * speed.toNat) := by
    intro hchecks
    have hmul := Nat.mul_le_mul_left animFrame.toNat hspeed
    have hfits := hanim hne hchecks
    omega
  have hwave (hne : animation ≠ .idle) (speed phase : UInt32)
      (h : speed.toNat ≤ 7 ∧ phase.toNat ≤ 16) := wave_ok (hroom hne speed h.1) h.2
  have hwaveAbs (hne : animation ≠ .idle) (speed phase : UInt32)
      (h : speed.toNat ≤ 7 ∧ phase.toNat ≤ 16) := waveAbs_ok (hroom hne speed h.1) h.2
  refine returns_bind (hbreath 0 (by decide)) fun w _ => ?_
  cases animation with
  | idle =>
    refine returns_bind (hposes idleLoop (by decide)) fun p hp => ⟨_, rfl, ?_⟩
    exact near_iff.mpr (by omega)
  | blink =>
    refine returns_bind (hposes blinkLoop (by decide)) fun p hp =>
      returns_bind (hbreath 8 (by decide)) fun wy hwy => ⟨_, rfl, ?_⟩
    exact near_iff.mpr (by omega)
  | lookAround =>
    refine returns_bind (hposes lookLoop (by decide)) fun p hp =>
      returns_bind (hbreath 16 (by decide)) fun wy hwy => ⟨_, rfl, ?_⟩
    exact near_iff.mpr (by omega)
  | confused =>
    refine returns_bind (hposes confusedLoop (by decide)) fun p hp =>
      returns_bind (hwave nofun 5 0 (by decide)) fun wx hwx =>
      returns_bind (hwave nofun 2 16 (by decide)) fun wy hwy => ⟨_, rfl, ?_⟩
    exact near_iff.mpr (by omega)
  | walk =>
    have hstride := stride_bounds (animFrame % (walkHalfPeriod * 2))
    dsimp only
    split
    · refine returns_bind (hposes walkRightLoop (by decide)) fun p hp =>
        returns_bind (hwaveAbs nofun 4 0 (by decide)) fun wy hwy => ⟨_, rfl, ?_⟩
      exact near_iff.mpr (by omega)
    · refine returns_bind (hposes walkLeftLoop (by decide)) fun p hp =>
        returns_bind (hwaveAbs nofun 4 0 (by decide)) fun wy hwy => ⟨_, rfl, ?_⟩
      exact near_iff.mpr (by omega)
  | happy =>
    refine returns_bind (hposes happyLoop (by decide)) fun p hp =>
      returns_bind (hwave nofun 2 0 (by decide)) fun wx hwx =>
      returns_bind (hwaveAbs nofun 4 16 (by decide)) fun wy hwy => ⟨_, rfl, ?_⟩
    exact near_iff.mpr (by omega)
  | play =>
    refine returns_bind (hposes playLoop (by decide)) fun p hp =>
      returns_bind (hwave nofun 3 0 (by decide)) fun wx hwx =>
      returns_bind (hwave nofun 4 16 (by decide)) fun wy hwy => ⟨_, rfl, ?_⟩
    exact near_iff.mpr (by omega)
  | excited =>
    refine returns_bind (hposes excitedLoop (by decide)) fun p hp =>
      returns_bind (hwave nofun 4 0 (by decide)) fun wx hwx => ⟨_, rfl, ?_⟩
    exact near_iff.mpr (by omega)
  | sleepy =>
    refine returns_bind (hposes sleepyLoop (by decide)) fun p hp =>
      returns_bind (hwave nofun 1 16 (by decide)) fun wy hwy => ⟨_, rfl, ?_⟩
    exact near_iff.mpr (by omega)
  | nap =>
    refine returns_bind (hposes napLoop (by decide)) fun p hp =>
      returns_bind (hwave nofun 1 0 (by decide)) fun wx hwx =>
      returns_bind (hwave nofun 1 16 (by decide)) fun wy hwy => ⟨_, rfl, ?_⟩
    exact near_iff.mpr (by omega)
  | worried =>
    refine returns_bind (hposes worriedLoop (by decide)) fun p hp =>
      returns_bind (hwave nofun 3 0 (by decide)) fun wx hwx =>
      returns_bind (hwave nofun 1 16 (by decide)) fun wy hwy => ⟨_, rfl, ?_⟩
    exact near_iff.mpr (by omega)
  | alert =>
    refine returns_bind (hposes alertLoop (by decide)) fun p hp =>
      returns_bind (hwave nofun 7 0 (by decide)) fun wx hwx =>
      returns_bind (hwaveAbs nofun 7 16 (by decide)) fun wy hwy => ⟨_, rfl, ?_⟩
    exact near_iff.mpr (by omega)

/-- The frame `draw` blits. -/
def Scene.spriteFrame (checks : Bool) (s : Scene) : Except Panic SpriteFrame :=
  frameFor checks s.drawn.animation s.frame s.drawn.animFrame s.drawn.alert

/-- The counter of a local animation but the idle one starts over with its period. -/
theorem Scene.localShown_animFrame (h : s.localAnimation ≠ .idle) :
    s.localShown.animFrame.toNat < 280 := by
  have hmem := localAnimation_mem s
  simp only [List.mem_cons, List.not_mem_nil, or_false] at hmem
  rcases hmem with hidle | hblink | hlook
  · exact absurd hidle h
  · have hframe : s.localShown.animFrame = s.frame % blinkPeriod := by
      simp [Scene.localShown, hblink]
    have hmod : s.frame.toNat % 96 < 96 := Nat.mod_lt _ (by decide)
    rw [hframe, UInt32.toNat_mod]
    exact Nat.lt_trans hmod (by decide)
  · have hframe : s.localShown.animFrame = saturatingSub (s.frame % lookPeriod) lookStart := by
      simp [Scene.localShown, hlook]
    have hmod : s.frame.toNat % 280 < 280 := Nat.mod_lt _ (by decide)
    rw [hframe, toNat_saturatingSub, UInt32.toNat_mod]
    exact Nat.lt_of_le_of_lt (Nat.sub_le _ _) hmod

/-- A scene always has a frame to draw. With overflow checks that holds for the 6.8 years until
the frame counter runs out. -/
theorem Scene.spriteFrame_ok (h : Room checks s.frame.toNat) :
    ∃ f, s.spriteFrame checks = .ok f ∧ f.Near := by
  apply frameFor_ok h
  intro hidle _
  cases hactive : s.active with
  | some active =>
    have hdrawn : s.drawn.animFrame = active.elapsed.toUInt32 := by simp [Scene.drawn, hactive]
    have helapsed := active.elapsed.toNat_lt
    rw [hdrawn, UInt16.toNat_toUInt32]
    omega
  | none =>
    have hdrawn : s.drawn = s.localShown := by simp [Scene.drawn, hactive]
    rw [hdrawn] at hidle ⊢
    have hsmall := s.localShown_animFrame hidle
    omega

end Hologotchi.Render
