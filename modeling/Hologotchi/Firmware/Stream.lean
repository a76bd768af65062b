import Hologotchi.Device.Model
import Hologotchi.Library.Lines

/-! The control stream as the firmware reads it, byte by byte (`read_control_stream` in
`device/src/bin/main.rs`). -/
namespace Hologotchi.Firmware

open Library Lines

def readBufLen : ℕ := 64

/-- The buffer and the locals of `read_control_stream`, with the behavior that is pending and all
frames given to `handle_frame`. -/
structure ControlReader where
  frame : Vector UInt8 frameCapacity
  frameLen : ℕ := 0
  droppingLine : Bool := false
  pendingBehavior : Option BehaviorUpdate
  handled : List (List UInt8) := []

/-- What `reader.read` gives: some bytes, none at the end of the stream, or an error. -/
inductive Read
  | bytes (chunk : List UInt8)
  | failed

/-- How `read_control_stream` returned. -/
inductive StreamEnd
  | closed
  | failed
  deriving DecidableEq

namespace ControlReader

/-- At the start the buffer holds what the last connection left. -/
def start (frame : Vector UInt8 frameCapacity) (pendingBehavior : Option BehaviorUpdate) :
    ControlReader :=
  { frame, pendingBehavior }

variable (fromSlice : List UInt8 → Option (RawBehaviorUpdate × ℕ))

def handleFrame (r : ControlReader) (frame : List UInt8) : ControlReader :=
  { r with
    pendingBehavior := match parse fromSlice frame with
      | .ok update => some update
      | .error _ => r.pendingBehavior
    handled := r.handled ++ [frame] }

/-- The body of the loop over the bytes of a read. -/
def readByte (r : ControlReader) (byte : UInt8) : ControlReader :=
  if byte = 0x0d then r
  else if byte = 0x0a then
    let r := if r.droppingLine then r
      else r.handleFrame fromSlice (r.frame.toList.take r.frameLen)
    { r with frameLen := 0, droppingLine := false }
  else if r.droppingLine then r
  else if h : r.frameLen < frameCapacity then
    { r with frame := r.frame.set r.frameLen byte h, frameLen := r.frameLen + 1 }
  else { r with droppingLine := true }

def readBytes (r : ControlReader) (bytes : List UInt8) : ControlReader :=
  bytes.foldl (readByte fromSlice) r

/-- `read_control_stream`; it has not returned while it waits for more. -/
def readControlStream (r : ControlReader) : List Read → ControlReader × Option StreamEnd
  | [] => (r, none)
  | .failed :: _ => (r, some .failed)
  | .bytes chunk :: reads =>
    if chunk.length = 0 then (r, some .closed)
    else readControlStream (r.readBytes fromSlice chunk) reads

end ControlReader

def withoutCr (line : List UInt8) : List UInt8 := line.filter (· ≠ 0x0d)

/-- The terminated lines that fit the frame buffer, without their carriage returns. -/
def controlLines (stream : List UInt8) : List (List UInt8) :=
  ((splitLines 0x0a stream).1.map withoutCr).filter (·.length ≤ frameCapacity)

/-- The updates among some lines. -/
def updatesIn (fromSlice : List UInt8 → Option (RawBehaviorUpdate × ℕ))
    (frames : List (List UInt8)) : List BehaviorUpdate :=
  frames.filterMap fun frame => (parse fromSlice frame).toOption

/-- The reader after the bytes seen so far. -/
structure Framed (fromSlice : List UInt8 → Option (RawBehaviorUpdate × ℕ))
    (pending : Option BehaviorUpdate) (seen : List UInt8) (r : ControlReader) : Prop where
  handled : r.handled = controlLines seen
  pending : r.pendingBehavior = (updatesIn fromSlice (controlLines seen)).getLast?.or pending
  frameLen_le : r.frameLen ≤ frameCapacity

/-- The part of the open line that counts. -/
def openLine (seen : List UInt8) : List UInt8 := withoutCr (splitLines 0x0a seen).2

/-- The buffer holds the open line, or is being dropped because the line does not fit. -/
structure Buffered (fromSlice : List UInt8 → Option (RawBehaviorUpdate × ℕ))
    (pending : Option BehaviorUpdate) (seen : List UInt8) (r : ControlReader) : Prop
    extends Framed fromSlice pending seen r where
  dropping : r.droppingLine = true → frameCapacity < (openLine seen).length
  buffer : r.droppingLine = false →
    r.frame.toList.take r.frameLen = openLine seen ∧ r.frameLen = (openLine seen).length

variable {fromSlice : List UInt8 → Option (RawBehaviorUpdate × ℕ)}
  {pending : Option BehaviorUpdate} {seen stream : List UInt8} {r : ControlReader} {b : UInt8}

theorem openLine_newline (seen : List UInt8) : openLine (seen ++ [0x0a]) = [] := by
  rw [openLine, splitLines_snoc_sep]
  rfl

theorem openLine_cr (seen : List UInt8) : openLine (seen ++ [0x0d]) = openLine seen := by
  rw [openLine, splitLines_snoc (by decide)]
  simp [withoutCr, openLine]

theorem openLine_snoc (hcr : b ≠ 0x0d) (hlf : b ≠ 0x0a) :
    openLine (seen ++ [b]) = openLine seen ++ [b] := by
  rw [openLine, splitLines_snoc hlf]
  simp [withoutCr, openLine, hcr]

/-- Only a line feed completes a line. -/
theorem controlLines_snoc (hlf : b ≠ 0x0a) : controlLines (seen ++ [b]) = controlLines seen := by
  rw [controlLines, splitLines_snoc hlf]
  rfl

theorem controlLines_newline (seen : List UInt8) : controlLines (seen ++ [0x0a]) =
    controlLines seen ++ [openLine seen].filter (·.length ≤ frameCapacity) := by
  rw [controlLines, splitLines_snoc_sep, List.map_append, List.filter_append]
  rfl

theorem take_set (v : Vector UInt8 frameCapacity) {n : ℕ} (h : n < frameCapacity) :
    (v.set n b h).toList.take (n + 1) = v.toList.take n ++ [b] := by
  have hfull : v.toList.length = frameCapacity := Vector.length_toList
  have hset : (v.set n b h).toList = v.toList.take n ++ [b] ++ v.toList.drop (n + 1) := by
    rw [Vector.toList_set, List.set_eq_take_append_cons_drop, if_pos (by omega)]
    simp
  have hlen : (v.toList.take n ++ [b]).length = n + 1 := by
    rw [List.length_append, List.length_take, List.length_singleton]
    omega
  rw [hset, ← hlen]
  exact List.take_left

/-- The update of a frame, if it has one, is pending afterwards. -/
theorem handleFrame_pending (h : r.pendingBehavior =
      (updatesIn fromSlice r.handled).getLast?.or pending) (frame : List UInt8) :
    (r.handleFrame fromSlice frame).pendingBehavior =
      (updatesIn fromSlice (r.handled ++ [frame])).getLast?.or pending := by
  simp only [ControlReader.handleFrame, updatesIn, List.filterMap_append]
  cases hparse : parse fromSlice frame with
  | ok update => simp [hparse, Except.toOption]
  | error e => simpa [hparse, Except.toOption, updatesIn] using h

theorem buffered_start (fromSlice : List UInt8 → Option (RawBehaviorUpdate × ℕ))
    (frame : Vector UInt8 frameCapacity) (pending : Option BehaviorUpdate) :
    Buffered fromSlice pending [] (.start frame pending) where
  handled := rfl
  pending := rfl
  frameLen_le := Nat.zero_le _
  dropping := by simp [ControlReader.start]
  buffer := fun _ => ⟨rfl, rfl⟩

theorem Buffered.newline (h : Buffered fromSlice pending seen r) :
    Buffered fromSlice pending (seen ++ [0x0a]) (r.readByte fromSlice 0x0a) := by
  have hopen : openLine (seen ++ [0x0a]) = [] := openLine_newline seen
  have hreset : ∀ r' : ControlReader, r'.handled = controlLines (seen ++ [0x0a]) →
      r'.pendingBehavior =
        (updatesIn fromSlice (controlLines (seen ++ [0x0a]))).getLast?.or pending →
      Buffered fromSlice pending (seen ++ [0x0a])
        { r' with frameLen := 0, droppingLine := false } := by
    intro r' hhandled hpending
    refine ⟨⟨hhandled, hpending, Nat.zero_le _⟩, ?_, ?_⟩
    · intro hdrop
      cases hdrop
    · intro _
      rw [hopen]
      exact ⟨rfl, rfl⟩
  have hcr : (0x0a : UInt8) ≠ 0x0d := by decide
  simp only [ControlReader.readByte, if_neg hcr, if_true]
  split
  case isTrue hdrop =>
    -- The line was too long: it is forgotten with its end.
    have hlong := h.dropping hdrop
    have hsame : controlLines (seen ++ [0x0a]) = controlLines seen := by
      rw [controlLines_newline, List.filter_cons_of_neg (by simpa using hlong), List.filter_nil,
        List.append_nil]
    exact hreset r (hsame ▸ h.handled) (hsame ▸ h.pending)
  case isFalse hkeep =>
    obtain ⟨hbuffer, hlen⟩ := h.buffer (by simpa using hkeep)
    have hfits : (openLine seen).length ≤ frameCapacity := hlen ▸ h.frameLen_le
    have hmore : controlLines (seen ++ [0x0a]) = r.handled ++ [openLine seen] := by
      rw [controlLines_newline, List.filter_cons_of_pos (by simpa using hfits), List.filter_nil,
        h.handled]
    have hpending : r.pendingBehavior = (updatesIn fromSlice r.handled).getLast?.or pending := by
      rw [h.handled]
      exact h.pending
    rw [hbuffer]
    refine hreset _ hmore.symm ?_
    rw [hmore]
    exact handleFrame_pending hpending (openLine seen)

theorem Buffered.cr (h : Buffered fromSlice pending seen r) :
    Buffered fromSlice pending (seen ++ [0x0d]) (r.readByte fromSlice 0x0d) := by
  have hopen : openLine (seen ++ [0x0d]) = openLine seen := openLine_cr seen
  have hlines : controlLines (seen ++ [0x0d]) = controlLines seen := controlLines_snoc (by decide)
  have hskip : r.readByte fromSlice 0x0d = r := if_pos rfl
  rw [hskip]
  exact
    { handled := hlines ▸ h.handled
      pending := hlines ▸ h.pending
      frameLen_le := h.frameLen_le
      dropping := hopen ▸ h.dropping
      buffer := hopen ▸ h.buffer }

theorem Buffered.other (h : Buffered fromSlice pending seen r) (hcr : b ≠ 0x0d)
    (hlf : b ≠ 0x0a) : Buffered fromSlice pending (seen ++ [b]) (r.readByte fromSlice b) := by
  have hopen : openLine (seen ++ [b]) = openLine seen ++ [b] := openLine_snoc hcr hlf
  have hlines : controlLines (seen ++ [b]) = controlLines seen := controlLines_snoc hlf
  have hsame : ∀ r' : ControlReader, r'.handled = r.handled →
      r'.pendingBehavior = r.pendingBehavior → r'.frameLen ≤ frameCapacity →
      Framed fromSlice pending (seen ++ [b]) r' := by
    intro r' hhandled hpending hlen
    exact ⟨by rw [hhandled, hlines, h.handled], by rw [hpending, hlines, h.pending], hlen⟩
  simp only [ControlReader.readByte, if_neg hcr, if_neg hlf]
  split
  case isTrue hdrop =>
    have hlong := h.dropping hdrop
    refine ⟨hsame _ rfl rfl h.frameLen_le, ?_, ?_⟩
    · intro _
      rw [hopen, List.length_append]
      omega
    · intro hkeep
      simp [hdrop] at hkeep
  case isFalse hkeep =>
    have hkeep : r.droppingLine = false := by simpa using hkeep
    obtain ⟨hbuffer, hlen⟩ := h.buffer hkeep
    split
    case isTrue hroom =>
      refine ⟨hsame _ rfl rfl hroom, ?_, ?_⟩
      · intro hdrop
        simp [hkeep] at hdrop
      · intro _
        refine ⟨?_, ?_⟩
        · simp only [take_set]
          rw [hbuffer, hopen]
        · rw [hopen, List.length_append, ← hlen]
          rfl
    case isFalse hfull =>
      refine ⟨hsame _ rfl rfl h.frameLen_le, ?_, ?_⟩
      · intro _
        rw [hopen, List.length_append, List.length_singleton]
        omega
      · intro hdrop
        simp at hdrop

theorem Buffered.readByte (h : Buffered fromSlice pending seen r) (b : UInt8) :
    Buffered fromSlice pending (seen ++ [b]) (r.readByte fromSlice b) := by
  by_cases hcr : b = 0x0d
  · subst hcr
    exact h.cr
  · by_cases hlf : b = 0x0a
    · subst hlf
      exact h.newline
    · exact h.other hcr hlf

theorem buffered_readBytes (fromSlice : List UInt8 → Option (RawBehaviorUpdate × ℕ))
    (frame : Vector UInt8 frameCapacity) (pending : Option BehaviorUpdate) (seen : List UInt8) :
    Buffered fromSlice pending seen
      ((ControlReader.start frame pending).readBytes fromSlice seen) := by
  induction seen using List.reverseRecOn with
  | nil => exact buffered_start fromSlice frame pending
  | append_singleton seen b ih =>
    rw [ControlReader.readBytes, List.foldl_append]
    exact ih.readByte b

/-- How the stream is cut into reads does not matter. -/
theorem readControlStream_chunks {chunks : List (List UInt8)} (hne : ∀ c ∈ chunks, c ≠ [])
    (r : ControlReader) (reads : List Read) :
    r.readControlStream fromSlice (chunks.map .bytes ++ reads) =
      (r.readBytes fromSlice chunks.flatten).readControlStream fromSlice reads := by
  induction chunks generalizing r with
  | nil => rfl
  | cons c chunks ih =>
    obtain ⟨hc, hrest⟩ := List.forall_mem_cons.mp hne
    have hcount : ¬ c.length = 0 := by simpa using hc
    rw [List.map_cons, List.cons_append, ControlReader.readControlStream, if_neg hcount, ih hrest,
      List.flatten_cons, ControlReader.readBytes, ControlReader.readBytes,
      ControlReader.readBytes, List.foldl_append]

/-- `read_control_stream` hands on the lines that fit, however the stream is cut into reads and
however it ends: after every byte it has handled exactly the lines completed so far, and the last
good one of them is what is pending. -/
theorem control_stream_framed (fromSlice : List UInt8 → Option (RawBehaviorUpdate × ℕ))
    (frame : Vector UInt8 frameCapacity) (pending : Option BehaviorUpdate)
    (stream : List UInt8) (chunks : List (List UInt8)) (hchunks : Segments readBufLen stream chunks)
    (ending : List Read) (hending : ∀ read ∈ ending.head?, read = .bytes [] ∨ read = .failed) :
    ((ControlReader.start frame pending).readControlStream fromSlice
        (chunks.map .bytes ++ ending)).1 =
      (ControlReader.start frame pending).readBytes fromSlice stream ∧
    ∀ seen, seen <+: stream →
      Framed fromSlice pending seen
        ((ControlReader.start frame pending).readBytes fromSlice seen) := by
  refine ⟨?_, fun seen _ => (buffered_readBytes fromSlice frame pending seen).toFramed⟩
  rw [readControlStream_chunks hchunks.ne_nil, hchunks.flatten_eq]
  cases ending with
  | nil => rfl
  | cons read reads =>
    rcases hending read rfl with rfl | rfl
    · rfl
    · rfl

/-- A line with a carriage return, in two reads, and the start of another before the end. -/
theorem control_stream_framed_brace :
    ((ControlReader.start (.replicate _ 0) none).readControlStream (fun _ => none)
      [.bytes [0x7b, 0x0d], .bytes [0x0a, 0x7b], .bytes []]).1.handled = [[0x7b]] := by
  have hframed := control_stream_framed (fun _ => none) (.replicate _ 0) none
    [0x7b, 0x0d, 0x0a, 0x7b] [[0x7b, 0x0d], [0x0a, 0x7b]] ⟨rfl, by decide, by decide⟩
    [.bytes []] (by simp)
  have hhandled := (hframed.2 _ (List.prefix_refl _)).handled
  exact (congrArg ControlReader.handled hframed.1).trans (hhandled.trans (by decide))

/-- To the rest of the device the bytes of a connection are the downlink steps of their updates. -/
theorem downlinks_of_stream (s : Device.State) {writing : Option (Device.Touch × List UInt8)}
    (hserving : s.server = .serving writing) (frame : Vector UInt8 frameCapacity)
    (stream : List UInt8) :
    ∃ run, run.map Prod.fst = (updatesIn fromSlice (controlLines stream)).map .downlink ∧
      Trace Device.Step s run
        { s with
          pendingBehavior := ((ControlReader.start frame s.pendingBehavior).readBytes fromSlice
            stream).pendingBehavior } := by
  rw [(buffered_readBytes fromSlice frame s.pendingBehavior stream).pending]
  generalize updatesIn fromSlice (controlLines stream) = updates
  induction updates generalizing s with
  | nil => exact ⟨[], rfl, .nil s⟩
  | cons update updates ih =>
    obtain ⟨run, hlabels, htrace⟩ := ih (s.queueBehaviorUpdate update) hserving
    refine ⟨(.downlink update, s.queueBehaviorUpdate update) :: run, ?_, ?_⟩
    · rw [List.map_cons, List.map_cons, hlabels]
    · have hlast : (update :: updates).getLast?.or s.pendingBehavior =
          updates.getLast?.or (some update) := by
        cases hupdates : updates.getLast? <;> simp [List.getLast?_cons, hupdates]
      rw [hlast]
      exact .cons (.downlink update hserving) htrace

end Hologotchi.Firmware
