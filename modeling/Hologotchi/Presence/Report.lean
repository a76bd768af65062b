import Mathlib.Data.Rat.Defs
import Hologotchi.Python

/-! Presence states and the per-tick report (`host/presence.py`). -/
namespace Hologotchi.Presence

open Python

inductive PresenceState
  | engaged
  | presentIgnoring
  | away
  deriving DecidableEq, Repr

structure PresenceReport where
  state : PresenceState
  ignoredSeconds : ℚ
  awaySeconds : ℚ
  returnedFromAway : Bool
  awayBeforeReturn : ℚ
  focusApp : Option Str
  focusSeconds : ℚ
  focusPressure : ℚ
  justLeft : Bool := false
  deriving DecidableEq, Repr

namespace PresenceReport

def ignoring (r : PresenceReport) : Bool := r.state == .presentIgnoring
def away (r : PresenceReport) : Bool := r.state == .away
def engaged (r : PresenceReport) : Bool := r.state == .engaged

end PresenceReport

end Hologotchi.Presence
