import Hologotchi.Firmware.Behavior
import Hologotchi.Library.Transitions
import Hologotchi.Touch.InputFrame

/-! The touch task and the control server of the firmware (`device/src/bin/main.rs`). A step is
what a task does between two awaits. -/
namespace Hologotchi.Device

open Touch Firmware Protocol

def inputQueueLen : ℕ := 8
/-- Length of the local touch acknowledgement. -/
def localAckDurationMs : UInt32 := 2500

/-- A gesture with its number among all that were classified; the code has only the gesture. -/
abbrev Touch := Gesture × ℕ

def touchAckOptions : Gesture → List String
  | .tap => ["who you?", "new hand?", "huh? you?", "boop ghost?"]
  | .hold _ => ["human? there?", "still you?", "hand there?", "hello hand?"]
  | .doubleTap => ["whoa? whoa?", "two boops?", "wait what?", "again??"]

/-- `push_str` onto an empty string. -/
def pushStr (phrase : String) : Option (HeaplessString textCapacity) :=
  if h : utf8Len phrase.toList ≤ textCapacity then some ⟨phrase.toList, h⟩ else none

def touchAckText (gesture : Gesture) (index : UInt8) : Option (HeaplessString textCapacity) :=
  let options := touchAckOptions gesture
  options[index.toNat % options.length]?.bind pushStr

def localAck (gesture : Gesture) (index : UInt8) : BehaviorUpdate where
  mood := .curious
  animation := .confused
  text := touchAckText gesture index
  alert := false
  durationMs := localAckDurationMs

/-- `try_send`: nothing when the channel is full. -/
def trySend (channel : List Touch) (t : Touch) : Option (List Touch) :=
  if channel.length < inputQueueLen then some (channel ++ [t]) else none

/-- The channel after `enqueue_input`, and what it received to make room. -/
def enqueueInput (channel : List Touch) (t : Touch) : List Touch × List Touch :=
  match trySend channel t with
  | some channel => (channel, [])
  | none =>
    let oldest := channel.take 1
    ((trySend (channel.drop 1) t).getD (channel.drop 1), oldest)

/-- Where `behavior_server_task` stands; while it serves, the touch that `write_input_stream` has
dequeued, with its line. -/
inductive Server
  | listening
  | serving (writing : Option (Touch × List UInt8))

/-- The touch that the writer holds. -/
def Server.held : Server → List Touch
  | .serving (some (t, _)) => [t]
  | .serving none | .listening => []

structure State where
  classifier : TouchClassifier := .new
  hostConnected : Bool := false
  inputChannel : List Touch := []
  server : Server := .listening
  pendingBehavior : Option BehaviorUpdate := none
  localAckCounter : UInt8 := 0
  /-- Every gesture the classifier returned. -/
  classified : List Gesture := []
  /-- The touches whose frame a `write_all` wrote, and these frames. -/
  sent : List Touch := []
  frames : List (List UInt8) := []
  acknowledged : List Touch := []
  /-- The touches that newer ones pushed out of the full channel. -/
  displaced : List Touch := []
  lost : List Touch := []

namespace State

def queueBehaviorUpdate (s : State) (update : BehaviorUpdate) : State :=
  { s with pendingBehavior := some update }

/-- Queue the local acknowledgement of a touch. -/
def acknowledge (s : State) (t : Touch) : State :=
  { s.queueBehaviorUpdate (localAck t.1 s.localAckCounter) with
    localAckCounter := s.localAckCounter + 1
    acknowledged := s.acknowledged ++ [t] }

def enqueue (s : State) (t : Touch) : State :=
  { s with
    inputChannel := (enqueueInput s.inputChannel t).1
    displaced := s.displaced ++ (enqueueInput s.inputChannel t).2 }

/-- What `touch_task` does with a gesture: uplink it or play the acknowledgement, never both. -/
def onGesture (s : State) (gesture : Gesture) : State :=
  let t := (gesture, s.classified.length)
  let s := { s with classified := s.classified ++ [gesture] }
  if s.hostConnected then s.enqueue t else s.acknowledge t

/-- One sample of `touch_task`. -/
def sample (s : State) (pressed : Bool) (nowMs : ℕ) : State :=
  let (classifier, gesture) := s.classifier.update pressed nowMs
  let s := { s with classifier := classifier }
  match gesture with
  | none => s
  | some gesture => s.onGesture gesture

/-- A host connects: what the channel holds is cleared. -/
def accept (s : State) : State :=
  { s with
    inputChannel := []
    hostConnected := true
    server := .serving none
    lost := s.lost ++ s.inputChannel }

/-- The writer takes a touch to send. -/
def receive (s : State) (t : Touch) (rest : List Touch) (line : List UInt8) : State :=
  { s with inputChannel := rest, server := .serving (some (t, line)) }

/-- A touch without a frame is passed over. -/
def passOver (s : State) (t : Touch) (rest : List Touch) : State :=
  { s with inputChannel := rest, lost := s.lost ++ [t] }

def written (s : State) (t : Touch) (line : List UInt8) : State :=
  { s with server := .serving none, sent := s.sent ++ [t], frames := s.frames ++ [line] }

/-- The end of a connection. -/
def disconnect (s : State) : State := { s with hostConnected := false, server := .listening }

/-- The reader ends first: the writer is dropped with what it holds. -/
def cancelWriter (s : State) : State := { s.disconnect with lost := s.lost ++ s.server.held }

end State

inductive Label
  | sample (pressed : Bool) (nowMs : ℕ)
  | accept
  | acceptFailed
  | downlink (update : BehaviorUpdate)
  | receive
  | written
  | writeFailed
  | readerEnded
  | render

inductive Step : State → Label → State → Prop
  | sample {s : State} (pressed : Bool) (nowMs : ℕ) :
      Step s (.sample pressed nowMs) (s.sample pressed nowMs)
  | accept {s : State} (h : s.server = .listening) : Step s .accept s.accept
  | acceptFailed {s : State} (h : s.server = .listening) : Step s .acceptFailed s
  /-- A frame of the host was accepted. -/
  | downlink {s : State} {writing : Option (Touch × List UInt8)} (update : BehaviorUpdate)
      (h : s.server = .serving writing) :
      Step s (.downlink update) (s.queueBehaviorUpdate update)
  | receive {s : State} {t : Touch} {rest : List Touch} {line : List UInt8}
      (h : s.server = .serving none) (hc : s.inputChannel = t :: rest)
      (hline : encodeInputFrame t.1 = some line) : Step s .receive (s.receive t rest line)
  | passOver {s : State} {t : Touch} {rest : List Touch}
      (h : s.server = .serving none) (hc : s.inputChannel = t :: rest)
      (hline : encodeInputFrame t.1 = none) : Step s .receive (s.passOver t rest)
  | written {s : State} {t : Touch} {line : List UInt8} (h : s.server = .serving (some (t, line))) :
      Step s .written (s.written t line)
  /-- The link died with this touch already dequeued. -/
  | writeFailed {s : State} {t : Touch} {line : List UInt8}
      (h : s.server = .serving (some (t, line))) :
      Step s .writeFailed (s.acknowledge t).disconnect
  /-- End of stream, or a read error. -/
  | readerEnded {s : State} {writing : Option (Touch × List UInt8)}
      (h : s.server = .serving writing) : Step s .readerEnded s.cancelWriter
  /-- The render loop takes the pending behavior. -/
  | render {s : State} : Step s .render { s with pendingBehavior := none }

variable {s : State} {t : Touch} {channel : List Touch}

theorem enqueueInput_room (h : channel.length < inputQueueLen) :
    enqueueInput channel t = (channel ++ [t], []) := by
  simp [enqueueInput, trySend, h]

/-- A full channel gives up its oldest touch, and has room then. -/
theorem enqueueInput_full {oldest : Touch} (h : ¬ (oldest :: channel).length < inputQueueLen)
    (hlen : (oldest :: channel).length ≤ inputQueueLen) :
    enqueueInput (oldest :: channel) t = (channel ++ [t], [oldest]) := by
  have hroom : channel.length < inputQueueLen := by
    simp only [List.length_cons] at hlen
    omega
  have hfull : trySend (oldest :: channel) t = none := if_neg h
  have hsend : trySend channel t = some (channel ++ [t]) := if_pos hroom
  simp [enqueueInput, hfull, hsend]

/-- Every local acknowledgement has its text. -/
theorem touchAckText_isSome (gesture : Gesture) (index : UInt8) :
    (touchAckText gesture index).isSome = true := by
  have hfits : ∀ phrase ∈ touchAckOptions gesture, (pushStr phrase).isSome = true := by
    cases gesture <;> simp only [touchAckOptions] <;> decide
  have hlen : index.toNat % (touchAckOptions gesture).length < (touchAckOptions gesture).length := by
    apply Nat.mod_lt
    cases gesture <;> simp [touchAckOptions]
  rw [touchAckText, List.getElem?_eq_getElem hlen, Option.bind_some]
  exact hfits _ (List.getElem_mem hlen)

end Hologotchi.Device
