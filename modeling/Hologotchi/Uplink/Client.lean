import Hologotchi.Inputs
import Hologotchi.Library.Lines

/-! The uplink reader of the host (`host/transport.py`): lines of touch frames out of the bytes
a socket delivers. -/
namespace Hologotchi.Uplink

open Python Library Lines Inputs

/-- Largest uplink line the host buffers. -/
def maxUplinkLineBytes : ℕ := 256
/-- Most bytes one read returns. -/
def recvBytes : ℕ := 256

def newline : UInt8 := 10

/-- A call of the touch sink. -/
abbrev TouchCall := Str × Option ℤ

/-- The touch a decoded payload carries: a hold with a duration, or a tap or doubletap
without one. -/
def touchOf (payload : List (Str × Json)) : Option TouchCall :=
  if !(Json.get payload "v").equalsInt 1 || !(Json.get payload "kind").equalsStr (str "input") then
    none
  else if !(Json.get payload "source").equalsStr (str touchSource) then none
  else match Json.get payload "gesture" with
    | .str gesture =>
      if gesture ∉ touchGestures then none
      else if gesture = str "hold" then
        match Json.get payload "duration_ms" with
        | .int duration => if duration < 0 then none else some (gesture, some duration)
        | _ => none
      else
        match Json.get payload "duration_ms" with
        | .null => some (gesture, none)
        | _ => none
    | _ => none

variable (loads : Str → Option Json)

/-- A line of the uplink; `loads` is `json.loads`, without a value where it raises. -/
def parseInputFrame (line : List UInt8) : Option TouchCall :=
  match decodeAscii line with
  | none => none
  | some line =>
    if strip line = [] then none
    else match loads (strip line) with
      | some (.obj payload) => touchOf payload
      | _ => none

/-- `_consume_lines`: the buffer it leaves and the calls it makes on the sink. -/
def consumeLines (buffer : List UInt8) : List UInt8 × List TouchCall :=
  let (lines, buffer) := splitLines newline buffer
  let calls := lines.filterMap (parseInputFrame loads)
  -- An overlong line with no terminator is dropped rather than let grow.
  (if maxUplinkLineBytes < buffer.length then [] else buffer, calls)

/-- What the read loop does with the data of one `recv`. -/
def readData (buffer data : List UInt8) : List UInt8 × List TouchCall :=
  consumeLines loads (buffer ++ data)

/-- The calls over all reads of a connection. -/
def touches (reads : List (List UInt8)) : List TouchCall :=
  (answers (readData loads) [] reads).flatten

/-- The buffer after all reads of a connection. -/
def bufferAfter (reads : List (List UInt8)) : List UInt8 := finalState (readData loads) [] reads

variable {loads} {buffer data line : List UInt8} {reads : List (List UInt8)}

theorem readData_eq (buffer data : List UInt8) : readData loads buffer data =
    ((receive newline maxUplinkLineBytes buffer data).1,
      (receive newline maxUplinkLineBytes buffer data).2.filterMap (parseInputFrame loads)) :=
  rfl

theorem run_eq (buffer : List UInt8) (reads : List (List UInt8)) :
    (answers (readData loads) buffer reads).flatten =
        (received newline maxUplinkLineBytes buffer reads).filterMap (parseInputFrame loads) ∧
      finalState (readData loads) buffer reads =
        finalState (receive newline maxUplinkLineBytes) buffer reads := by
  induction reads generalizing buffer with
  | nil => exact ⟨rfl, rfl⟩
  | cons data reads ih =>
    obtain ⟨hcalls, hbuffer⟩ := ih (receive newline maxUplinkLineBytes buffer data).1
    constructor
    · simp only [answers_cons, List.flatten_cons, received_cons, List.filterMap_append, readData_eq]
      rw [hcalls]
    · rw [finalState_cons, finalState_cons, readData_eq]
      exact hbuffer

/-- The reader parses the lines a bounded reader completes. -/
theorem touches_eq (reads : List (List UInt8)) : touches loads reads =
    (received newline maxUplinkLineBytes [] reads).filterMap (parseInputFrame loads) :=
  (run_eq [] reads).1

theorem bufferAfter_eq (reads : List (List UInt8)) : bufferAfter loads reads =
    finalState (receive newline maxUplinkLineBytes) [] reads := (run_eq [] reads).2

/-- Every touch that is delivered keeps the contract of its gesture. -/
theorem touchOf_contract {payload : List (Str × Json)} {call : TouchCall}
    (h : touchOf payload = some call) : call.1 ∈ touchGestures ∧
      (call.2.isSome = true ↔ call.1 = str "hold") ∧ ∀ d ∈ call.2, 0 ≤ d := by
  simp only [touchOf] at h
  split_ifs at h
  cases hgesture : Json.get payload "gesture" <;> rw [hgesture] at h <;> try contradiction
  rename_i gesture
  simp only at h
  split_ifs at h with hmem hhold
  · cases hd : Json.get payload "duration_ms" <;> rw [hd] at h <;> try contradiction
    rename_i duration
    simp only at h
    split_ifs at h with hneg
    obtain rfl := Option.some.inj h
    exact ⟨hmem, by simp [hhold], by simpa using hneg⟩
  · cases hd : Json.get payload "duration_ms" <;> rw [hd] at h <;> try contradiction
    obtain rfl := Option.some.inj h
    exact ⟨hmem, by simpa using hhold, by simp⟩

end Hologotchi.Uplink
