import Hologotchi.Library.Lines
import Hologotchi.Library.Transitions
import Hologotchi.Protocol

/-! The threads around the socket of `BehaviorClient` (`host/transport.py`): any number of
senders, the uplink reader and one `close`. Each lock section, connect and socket operation is
one step, and so are the unlocked reads and writes of the flags. A connect is
`create_connection` and the `settimeout` on what it gives. -/
namespace Hologotchi.Connection

open Python Library Lines Protocol

/-- Sockets are numbered as they are opened. -/
abbrev Socket := ℕ

def newline : UInt8 := 10

/-- What is written: a behavior, with the attempts left after this one, or a keepalive. -/
inductive Job
  | send (command : BehaviorCommand) (left : ℕ)
  | keepalive

/-- The bytes of a behavior on the wire. -/
def payload (command : BehaviorCommand) : List UInt8 := encodeAscii command.toJsonLine

def Job.payload : Job → List UInt8
  | .send command _ => Connection.payload command
  | .keepalive => [newline]

/-- Where a thread stands in `send` or `send_keepalive`. -/
inductive Call
  | idle
  /-- Before the first lock section of `_ensure_connected`. -/
  | ensuring (command : BehaviorCommand) (left : ℕ)
  /-- In `_connect`, with the retries left. -/
  | connecting (command : BehaviorCommand) (left retries : ℕ)
  /-- Before the second lock section of `_ensure_connected`, with a fresh socket. -/
  | connected (command : BehaviorCommand) (left : ℕ) (sock : Socket)
  /-- Before the lock section of `_current_sock`. -/
  | peeking
  /-- Before `sendall`. -/
  | writing (job : Job) (sock : Socket)
  /-- `sendall` raised after a part of the payload; before the lock section of `_drop`. -/
  | dropping (job : Job) (sock : Socket) (part : List UInt8)
  /-- Before the close of `_drop`. -/
  | closing (job : Job) (sock : Socket) (part : List UInt8)

/-- Where the reader thread stands in `_read_loop`. -/
inductive Reader
  | stopped
  | checking
  | peeking
  | unattached
  | probing
  /-- Before the lock section of `_probe_reconnect`, with a fresh socket. -/
  | probed (sock : Socket)
  | receiving (sock : Socket)
  | dropping (sock : Socket)
  | closing (sock : Socket)

/-- Where the thread that calls `close` stands. -/
inductive Closer
  | idle
  | flagged
  | peeked (sock : Option Socket)
  | cleared (sock : Option Socket)
  | joining
  | returned

/-- A `send` that returned: what it wrote, where, and what was there before. -/
structure Delivery where
  command : BehaviorCommand
  sock : Socket
  before : List UInt8

/-- What a job that wrote everything counts as; a keepalive as nothing. -/
def Job.deliveries (sock : Socket) (before : List UInt8) : Job → List Delivery
  | .send command _ => [⟨command, sock, before⟩]
  | .keepalive => []

structure State (ι : Type*) where
  sock : Option Socket := none
  closed : Bool := false
  everConnected : Bool := false
  /-- How many sockets were opened so far. -/
  opened : ℕ := 0
  shut : Finset Socket := ∅
  /-- The bytes written on each socket. -/
  wire : Socket → List UInt8 := fun _ => []
  call : ι → Call := fun _ => .idle
  reader : Reader
  closer : Closer := .idle
  delivered : List Delivery := []

/-- The reader runs when there is a sink for touches. -/
def initial (ι : Type*) (onTouch : Bool) : State ι where
  reader := if onTouch then .checking else .stopped

/-- Who takes a step. -/
inductive Actor (ι : Type*)
  | call (i : ι)
  | reader
  | closer
  deriving DecidableEq

inductive Label (ι : Type*)
  | send (i : ι) (command : BehaviorCommand)
  | keepalive (i : ι)
  | ensure (i : ι)
  | connectFailed (i : ι)
  | connect (i : ι)
  | install (i : ι)
  | peek (i : ι)
  | written (i : ι)
  | broken (i : ι) (part : List UInt8)
  | drop (i : ι)
  | close (i : ι)
  | reader
  | closer

@[simp] def Label.actor {ι : Type*} : Label ι → Actor ι
  | .send i _ | .keepalive i | .ensure i | .connectFailed i | .connect i | .install i | .peek i
  | .written i | .broken i _ | .drop i | .close i => .call i
  | .reader => .reader
  | .closer => .closer

/-- After a failed connect: another try, or a `TransportError`. -/
def Call.retry (command : BehaviorCommand) (left : ℕ) : ℕ → Call
  | 0 => .idle
  | retries + 1 => .connecting command left retries

/-- After a dropped connection: the next attempt, or a `TransportError`; a keepalive gives up
silently. -/
def Job.afterDrop : Job → Call
  | .send _ 0 | .keepalive => .idle
  | .send command (left + 1) => .ensuring command left

variable {ι : Type*}

namespace State

@[simp] def setReader (s : State ι) (phase : Reader) : State ι := { s with reader := phase }
@[simp] def setCloser (s : State ι) (phase : Closer) : State ι := { s with closer := phase }
@[simp] def setClosed (s : State ι) : State ι := { s with closed := true }
@[simp] def clearSock (s : State ι) : State ι := { s with sock := none }
@[simp] def openSocket (s : State ι) : State ι := { s with opened := s.opened + 1 }

@[simp] def setCall [DecidableEq ι] (s : State ι) (i : ι) (phase : Call) : State ι :=
  { s with call := Function.update s.call i phase }

/-- The lock section that puts a fresh socket in place. -/
@[simp] def install (s : State ι) (sock : Socket) : State ι :=
  { s with sock := some sock, everConnected := true }

/-- The lock section of `_drop`: a newer socket stays. -/
@[simp] def uninstall (s : State ι) (sock : Socket) : State ι :=
  { s with sock := if s.sock = some sock then none else s.sock }

/-- `_safe_close`. -/
@[simp] def shutSocket (s : State ι) (sock : Socket) : State ι := { s with shut := insert sock s.shut }

@[simp] def write (s : State ι) (sock : Socket) (bytes : List UInt8) : State ι :=
  { s with wire := Function.update s.wire sock (s.wire sock ++ bytes) }

@[simp] def deliver (s : State ι) (job : Job) (sock : Socket) : State ι :=
  { s with delivered := s.delivered ++ job.deliveries sock (s.wire sock) }

end State

variable [DecidableEq ι]

/-- `connectRetries` is the number of tries of one `_connect`. -/
inductive Step (connectRetries : ℕ) : State ι → Label ι → State ι → Prop
  | send {s : State ι} {i : ι} (command : BehaviorCommand) (h : s.call i = .idle) :
      Step connectRetries s (.send i command) (s.setCall i (.ensuring command 1))
  | keepalive {s : State ι} {i : ι} (h : s.call i = .idle) :
      Step connectRetries s (.keepalive i) (s.setCall i .peeking)
  | ensureLive {s : State ι} {i : ι} {command : BehaviorCommand} {left : ℕ} {sock : Socket}
      (h : s.call i = .ensuring command left) (hs : s.sock = some sock) :
      Step connectRetries s (.ensure i) (s.setCall i (.writing (.send command left) sock))
  | ensureDead {s : State ι} {i : ι} {command : BehaviorCommand} {left : ℕ}
      (h : s.call i = .ensuring command left) (hs : s.sock = none) :
      Step connectRetries s (.ensure i)
        (s.setCall i (.connecting command left (connectRetries - 1)))
  | connectFailed {s : State ι} {i : ι} {command : BehaviorCommand} {left retries : ℕ}
      (h : s.call i = .connecting command left retries) :
      Step connectRetries s (.connectFailed i) (s.setCall i (.retry command left retries))
  | connect {s : State ι} {i : ι} {command : BehaviorCommand} {left retries : ℕ}
      (h : s.call i = .connecting command left retries) :
      Step connectRetries s (.connect i) (s.openSocket.setCall i (.connected command left s.opened))
  /-- The client is closed: the fresh socket is closed and a `TransportError` raised. -/
  | installClosed {s : State ι} {i : ι} {command : BehaviorCommand} {left : ℕ} {sock : Socket}
      (h : s.call i = .connected command left sock) (hc : s.closed = true) :
      Step connectRetries s (.install i) ((s.shutSocket sock).setCall i .idle)
  /-- Another thread connected meanwhile: its socket is kept. -/
  | installKeep {s : State ι} {i : ι} {command : BehaviorCommand} {left : ℕ} {sock other : Socket}
      (h : s.call i = .connected command left sock) (hc : s.closed = false)
      (hs : s.sock = some other) : Step connectRetries s (.install i)
        ((s.shutSocket sock).setCall i (.writing (.send command left) other))
  | install {s : State ι} {i : ι} {command : BehaviorCommand} {left : ℕ} {sock : Socket}
      (h : s.call i = .connected command left sock) (hc : s.closed = false) (hs : s.sock = none) :
      Step connectRetries s (.install i)
        ((s.install sock).setCall i (.writing (.send command left) sock))
  | peekNone {s : State ι} {i : ι} (h : s.call i = .peeking) (hs : s.sock = none) :
      Step connectRetries s (.peek i) (s.setCall i .idle)
  | peekLive {s : State ι} {i : ι} {sock : Socket} (h : s.call i = .peeking)
      (hs : s.sock = some sock) :
      Step connectRetries s (.peek i) (s.setCall i (.writing .keepalive sock))
  /-- `sendall` under the send lock writes everything. -/
  | written {s : State ι} {i : ι} {job : Job} {sock : Socket} (h : s.call i = .writing job sock)
      (hopen : sock ∉ s.shut) : Step connectRetries s (.written i)
        (((s.deliver job sock).write sock job.payload).setCall i .idle)
  /-- It raises after some prefix; nothing goes out on a closed socket. -/
  | broken {s : State ι} {i : ι} {job : Job} {sock : Socket} {part : List UInt8}
      (h : s.call i = .writing job sock) (hpart : part <+: job.payload)
      (hopen : sock ∈ s.shut → part = []) : Step connectRetries s (.broken i part)
        ((s.write sock part).setCall i (.dropping job sock part))
  | drop {s : State ι} {i : ι} {job : Job} {sock : Socket} {part : List UInt8}
      (h : s.call i = .dropping job sock part) : Step connectRetries s (.drop i)
        ((s.uninstall sock).setCall i (.closing job sock part))
  | close {s : State ι} {i : ι} {job : Job} {sock : Socket} {part : List UInt8}
      (h : s.call i = .closing job sock part) : Step connectRetries s (.close i)
        ((s.shutSocket sock).setCall i job.afterDrop)
  /-- The loop condition of the reader. -/
  | readerStop {s : State ι} (h : s.reader = .checking) (hc : s.closed = true) :
      Step connectRetries s .reader (s.setReader .stopped)
  | readerGo {s : State ι} (h : s.reader = .checking) (hc : s.closed = false) :
      Step connectRetries s .reader (s.setReader .peeking)
  | readerNone {s : State ι} (h : s.reader = .peeking) (hs : s.sock = none) :
      Step connectRetries s .reader (s.setReader .unattached)
  | readerLive {s : State ι} {sock : Socket} (h : s.reader = .peeking) (hs : s.sock = some sock) :
      Step connectRetries s .reader (s.setReader (.receiving sock))
  | readerSleep {s : State ι} (h : s.reader = .unattached) (he : s.everConnected = false) :
      Step connectRetries s .reader (s.setReader .checking)
  | readerProbe {s : State ι} (h : s.reader = .unattached) (he : s.everConnected = true) :
      Step connectRetries s .reader (s.setReader .probing)
  | probeFailed {s : State ι} (h : s.reader = .probing) :
      Step connectRetries s .reader (s.setReader .checking)
  | probe {s : State ι} (h : s.reader = .probing) :
      Step connectRetries s .reader (s.openSocket.setReader (.probed s.opened))
  | probeKeep {s : State ι} {sock : Socket} (h : s.reader = .probed sock)
      (hs : s.closed = true ∨ s.sock ≠ none) :
      Step connectRetries s .reader ((s.shutSocket sock).setReader .checking)
  | probeInstall {s : State ι} {sock : Socket} (h : s.reader = .probed sock)
      (hc : s.closed = false) (hs : s.sock = none) :
      Step connectRetries s .reader ((s.install sock).setReader .checking)
  /-- Data, or a timeout. -/
  | received {s : State ι} {sock : Socket} (h : s.reader = .receiving sock) :
      Step connectRetries s .reader (s.setReader .checking)
  /-- An error, or the end of the stream. -/
  | receiveFailed {s : State ι} {sock : Socket} (h : s.reader = .receiving sock) :
      Step connectRetries s .reader (s.setReader (.dropping sock))
  | readerDrop {s : State ι} {sock : Socket} (h : s.reader = .dropping sock) :
      Step connectRetries s .reader ((s.uninstall sock).setReader (.closing sock))
  | readerClose {s : State ι} {sock : Socket} (h : s.reader = .closing sock) :
      Step connectRetries s .reader ((s.shutSocket sock).setReader .checking)
  | flag {s : State ι} (h : s.closer = .idle) :
      Step connectRetries s .closer (s.setClosed.setCloser .flagged)
  | closerPeek {s : State ι} (h : s.closer = .flagged) :
      Step connectRetries s .closer (s.setCloser (.peeked s.sock))
  | closerClear {s : State ι} {sock : Option Socket} (h : s.closer = .peeked sock) :
      Step connectRetries s .closer (s.clearSock.setCloser (.cleared sock))
  | closerNone {s : State ι} (h : s.closer = .cleared none) :
      Step connectRetries s .closer (s.setCloser .joining)
  | closerClose {s : State ι} {sock : Socket} (h : s.closer = .cleared (some sock)) :
      Step connectRetries s .closer ((s.shutSocket sock).setCloser .joining)
  /-- The reader has stopped, or the join timed out. -/
  | joined {s : State ι} (h : s.closer = .joining) :
      Step connectRetries s .closer (s.setCloser .returned)

variable {connectRetries : ℕ} {s t : State ι} {a : Label ι} {i : ι} {sock : Socket}

theorem step_other_call (h : Step connectRetries s a t) (hne : Actor.call i ≠ a.actor) :
    t.call i = s.call i := by
  cases h <;> simp_all

/-- A closed socket stays closed. -/
theorem step_shut (h : Step connectRetries s a t) (hsock : sock ∈ s.shut) : sock ∈ t.shut := by
  cases h <;> simp_all

/-- Only `sendall` writes. -/
theorem step_wire (h : Step connectRetries s a t) (hwritten : ∀ i, a ≠ .written i)
    (hbroken : ∀ i part, a ≠ .broken i part) : t.wire = s.wire ∧ t.delivered = s.delivered := by
  cases h <;> simp_all

end Hologotchi.Connection
