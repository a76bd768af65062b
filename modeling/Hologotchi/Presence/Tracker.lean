import Hologotchi.Presence.Mailbox
import Mathlib.Tactic.NormNum

/-! The presence state machine (`PresenceTracker` in `host/presence.py`). -/
namespace Hologotchi.Presence

open Python

/-- Every threshold is checked positive on construction. -/
structure PresenceConfig where
  engagedWindowSeconds : ℚ := 90
  awayIdleSeconds : ℚ := 300
  returnMinSeconds : ℚ := 120
  focusJealousySeconds : ℚ := 1200
  engagedWindow_pos : 0 < engagedWindowSeconds := by norm_num
  awayIdle_pos : 0 < awayIdleSeconds := by norm_num
  returnMin_pos : 0 < returnMinSeconds := by norm_num
  focusJealousy_pos : 0 < focusJealousySeconds := by norm_num

def PresenceConfig.default : PresenceConfig := {}

structure PresenceTracker where
  config : PresenceConfig := .default
  lastInteraction : ℚ := 0
  state : Option PresenceState := none
  stateSince : ℚ := 0
  awaySince : ℚ := 0
  focusApp : Option Str := none
  focusSince : ℚ := 0

namespace PresenceTracker

def noteInteraction (k : PresenceTracker) (now : ℚ) : PresenceTracker :=
  { k with lastInteraction := now }

/-- The last interaction is inside the engaged window. -/
def isEngaged (k : PresenceTracker) (now : ℚ) : Bool :=
  0 < k.lastInteraction ∧ now - k.lastInteraction ≤ k.config.engagedWindowSeconds

def classify (k : PresenceTracker) (now : ℚ) (signals : PresenceSignals) : PresenceState :=
  if k.isEngaged now then .engaged
  else match signals.present with
    | some false => .away
    | some true => .presentIgnoring
    | none =>
      if signals.screenLocked = some true then .away
      else match signals.idleSeconds with
        | some idle =>
          if (Double.finite k.config.awayIdleSeconds).le idle then .away else .presentIgnoring
        | none =>
          if signals.screenLocked = some false then .presentIgnoring
          -- No evidence of presence at all reads as a benign absence.
          else .away

def updateFocus (k : PresenceTracker) (now : ℚ) (signals : PresenceSignals) : PresenceTracker :=
  if signals.foregroundApp ≠ k.focusApp then
    { k with focusApp := signals.foregroundApp, focusSince := now }
  else k

/-- An app is in focus; an empty name counts as none. -/
def hasFocus (k : PresenceTracker) : Bool := k.focusApp.any (· ≠ [])

def focusPressure (k : PresenceTracker) (state : PresenceState) (focusSeconds : ℚ) : ℚ :=
  if state ≠ .presentIgnoring ∨ !k.hasFocus then 0
  else if focusSeconds < k.config.focusJealousySeconds then 0
  else
    let excess := focusSeconds - k.config.focusJealousySeconds
    min 1 (excess / k.config.focusJealousySeconds)

def update (k : PresenceTracker) (now : ℚ) (signals : PresenceSignals) :
    PresenceTracker × PresenceReport :=
  let newState := k.classify now signals
  let k := k.updateFocus now signals
  let back := k.state = some .away ∧ newState ≠ .away
  let awayBeforeReturn := if back then max 0 (now - k.awaySince) else 0
  let returned := back ∧ k.config.returnMinSeconds ≤ awayBeforeReturn
  let justLeft := newState = .away ∧ k.state ≠ none ∧ k.state ≠ some .away
  let awaySince := if newState = .away ∧ k.state ≠ some .away then now else k.awaySince
  let stateSince := if some newState ≠ k.state then now else k.stateSince
  let focusSeconds := if k.hasFocus then now - k.focusSince else 0
  ({ k with state := some newState, stateSince, awaySince }, {
    state := newState
    awaySeconds := if newState = .away then now - awaySince else 0
    ignoredSeconds := if newState = .presentIgnoring then now - stateSince else 0
    returnedFromAway := returned
    awayBeforeReturn := awayBeforeReturn
    focusApp := k.focusApp
    focusSeconds := focusSeconds
    focusPressure := k.focusPressure newState focusSeconds
    justLeft := justLeft })

end PresenceTracker

end Hologotchi.Presence
