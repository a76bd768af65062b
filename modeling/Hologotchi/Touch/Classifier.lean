import Mathlib.Data.List.Basic

/-! The touch-gesture classifier of the firmware (`device/touch/src/lib.rs`).
Timestamps are unbounded milliseconds; `saturating_sub` is subtraction on `ℕ`. -/
namespace Hologotchi.Touch

/-- Stable-level time required before an edge is accepted. -/
def debounceMs : ℕ := 40
/-- Minimum press length reported as a hold. -/
def holdMs : ℕ := 700
/-- A second press starting within this of the first release is a double tap. -/
def doubletapWindowMs : ℕ := 400
/-- Minimum spacing between emitted taps and double taps. -/
def minEventGapMs : ℕ := 250
/-- Upper bound on a reported hold duration. -/
def holdDurationMaxMs : UInt32 := 60000

inductive Gesture
  | tap
  | hold (durationMs : UInt32)
  | doubleTap
  deriving DecidableEq, Repr

inductive Edge
  | down
  | up
  deriving DecidableEq, Repr

inductive Phase
  | idle
  /-- A press is in progress since the debounced press time. -/
  | firstDown (startMs : ℕ)
  /-- First tap released; a second press may still follow. -/
  | waitSecond (releasedMs : ℕ)
  /-- A double tap was already emitted on this press. -/
  | drainRelease
  deriving DecidableEq, Repr

structure TouchClassifier where
  initialized : Bool
  rawLevel : Bool
  rawSinceMs : ℕ
  stableLevel : Bool
  phase : Phase
  lastEmitMs : ℕ
  lastEmitValid : Bool
  deriving DecidableEq, Repr

namespace TouchClassifier

def new : TouchClassifier where
  initialized := false
  rawLevel := false
  rawSinceMs := 0
  stableLevel := false
  phase := .idle
  lastEmitMs := 0
  lastEmitValid := false

/-- A changed raw level restarts the debounce timer. -/
def noteRaw (c : TouchClassifier) (pressed : Bool) (nowMs : ℕ) : TouchClassifier :=
  if pressed ≠ c.rawLevel then { c with rawLevel := pressed, rawSinceMs := nowMs } else c

def debounce (c : TouchClassifier) (pressed : Bool) (nowMs : ℕ) : TouchClassifier × Option Edge :=
  if !c.initialized then
    ({ c with initialized := true, rawLevel := pressed, stableLevel := pressed,
              rawSinceMs := nowMs }, none)
  else
    let c := c.noteRaw pressed nowMs
    if c.rawLevel ≠ c.stableLevel ∧ debounceMs ≤ nowMs - c.rawSinceMs then
      ({ c with stableLevel := c.rawLevel }, some (if c.rawLevel then .down else .up))
    else
      (c, none)

def emitLimited (c : TouchClassifier) (gesture : Gesture) (nowMs : ℕ) :
    TouchClassifier × Option Gesture :=
  if c.lastEmitValid ∧ nowMs - c.lastEmitMs < minEventGapMs then (c, none)
  else ({ c with lastEmitMs := nowMs, lastEmitValid := true }, some gesture)

/-- `duration as u32` is the wrapping cast `UInt32.ofNat`. -/
def clampDuration (durationMs : ℕ) : UInt32 :=
  if durationMs > holdDurationMaxMs.toNat then holdDurationMaxMs else UInt32.ofNat durationMs

def onPress (c : TouchClassifier) (nowMs : ℕ) : TouchClassifier × Option Gesture :=
  match c.phase with
  | .idle => ({ c with phase := .firstDown nowMs }, none)
  | .waitSecond releasedMs =>
    if nowMs - releasedMs < doubletapWindowMs then
      { c with phase := .drainRelease }.emitLimited .doubleTap nowMs
    else
      -- The window expired on this very sample: the pending tap goes out first.
      let (c, pendingTap) := c.emitLimited .tap nowMs
      ({ c with phase := .firstDown nowMs }, pendingTap)
  | .firstDown _ | .drainRelease => (c, none)

def onRelease (c : TouchClassifier) (nowMs : ℕ) : TouchClassifier × Option Gesture :=
  match c.phase with
  | .firstDown startMs =>
    if holdMs ≤ nowMs - startMs then
      -- A hold skips the limiter and resets its baseline.
      ({ c with phase := .idle, lastEmitMs := nowMs, lastEmitValid := true },
        some (.hold (clampDuration (nowMs - startMs))))
    else
      ({ c with phase := .waitSecond nowMs }, none)
  | .drainRelease => ({ c with phase := .idle }, none)
  | .idle | .waitSecond _ => (c, none)

def onTick (c : TouchClassifier) (nowMs : ℕ) : TouchClassifier × Option Gesture :=
  match c.phase with
  | .waitSecond releasedMs =>
    if doubletapWindowMs ≤ nowMs - releasedMs then
      { c with phase := .idle }.emitLimited .tap nowMs
    else (c, none)
  | _ => (c, none)

/-- Feed one sample. -/
def update (c : TouchClassifier) (pressed : Bool) (nowMs : ℕ) : TouchClassifier × Option Gesture :=
  match c.debounce pressed nowMs with
  | (c, some .down) => c.onPress nowMs
  | (c, some .up) => c.onRelease nowMs
  | (c, none) => c.onTick nowMs

end TouchClassifier

end Hologotchi.Touch
