import Hologotchi.Touch.Classifier

/-! What a stream of samples should be reported as, read off the whole list of accepted
edges at once. The classifier itself is used for the edges only. -/
namespace Hologotchi.Touch

/-- One sample of the stream: its position, its timestamp and the edge accepted on it. -/
structure Mark where
  index : ℕ
  time : ℕ
  edge : Option Edge
  deriving DecidableEq, Repr

/-- A gesture with its duration as a plain number. -/
inductive Report
  | tap
  | hold (durationMs : ℕ)
  | doubleTap
  deriving DecidableEq, Repr

def Gesture.report : Gesture → Report
  | .tap => .tap
  | .hold d => .hold d.toNat
  | .doubleTap => .doubleTap

/-- The marks of a stream, the first of them at position `n`. -/
def marksFrom (n : ℕ) (c : TouchClassifier) : List (Bool × ℕ) → List Mark
  | [] => []
  | (pressed, now) :: rest =>
    ⟨n, now, (c.debounce pressed now).2⟩ :: marksFrom (n + 1) (c.update pressed now).1 rest

/-- The gestures returned by `update`, each with the mark of its sample. -/
def reportsFrom (n : ℕ) (c : TouchClassifier) : List (Bool × ℕ) → List (Mark × Gesture)
  | [] => []
  | (pressed, now) :: rest =>
    ((c.update pressed now).2.map fun g => (⟨n, now, (c.debounce pressed now).2⟩, g)).toList ++
      reportsFrom (n + 1) (c.update pressed now).1 rest

def marks (samples : List (Bool × ℕ)) : List Mark := marksFrom 0 .new samples

def reports (samples : List (Bool × ℕ)) : List (Mark × Gesture) := reportsFrom 0 .new samples

/-- The accepted edges, in order. -/
def edges (ms : List Mark) : List (Edge × Mark) := ms.filterMap fun m => m.edge.map (·, m)

/-- A press: its Down edge and, unless it is still held at the end, its Up edge. -/
structure Press where
  down : Mark
  up : Option Mark
  deriving DecidableEq, Repr

/-- Pair the edges from the first Down on. -/
def presses : List (Edge × Mark) → List Press
  | [] => []
  | (.up, _) :: es => presses es
  | [(.down, d)] => [⟨d, none⟩]
  | (.down, d) :: (_, u) :: es => ⟨d, some u⟩ :: presses es

/-- The first sample after `u` at which the double-tap window has run out. -/
def windowEnd (ms : List Mark) (u : Mark) : Option Mark :=
  ms.find? fun m => u.index < m.index ∧ doubletapWindowMs ≤ m.time - u.time

/-- A lone short press is a tap once its window has run out, and nothing before that. -/
def pendingTap (ms : List Mark) (u : Mark) : List (Mark × Report) :=
  (windowEnd ms u).toList.map (·, .tap)

/-- What the presses mean, before rate limiting. -/
def gestures (ms : List Mark) : List Press → List (Mark × Report)
  | [] => []
  | ⟨_, none⟩ :: _ => []
  | ⟨d, some u⟩ :: rest =>
    if holdMs ≤ u.time - d.time then
      (u, .hold (min (u.time - d.time) holdDurationMaxMs.toNat)) :: gestures ms rest
    else
      match rest with
      | [] => pendingTap ms u
      | second :: others =>
        if second.down.time - u.time < doubletapWindowMs then
          -- The second press is consumed: it produces nothing more.
          (second.down, .doubleTap) :: gestures ms others
        else pendingTap ms u ++ gestures ms (second :: others)

/-- Drop each tap or double tap closer than the gap to the last kept gesture. -/
def rateLimit : Option ℕ → List (Mark × Report) → List (Mark × Report)
  | _, [] => []
  | _, (m, .hold d) :: rest => (m, .hold d) :: rateLimit (some m.time) rest
  | last, (m, g) :: rest =>
    if ∃ t ∈ last, m.time - t < minEventGapMs then rateLimit last rest
    else (m, g) :: rateLimit (some m.time) rest

/-- The batch reading of a stream. -/
def expected (samples : List (Bool × ℕ)) : List (Mark × Report) :=
  rateLimit none (gestures (marks samples) (presses (edges (marks samples))))

end Hologotchi.Touch
