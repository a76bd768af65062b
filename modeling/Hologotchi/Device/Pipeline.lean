import Hologotchi.Device.Touches
import Hologotchi.Uplink.Framing

/-! The way of a touch from the pad to the pet loop: the tasks of the firmware, the connections, the
uplink reader of the host (`host/transport.py`), the input queue and the loop together. -/
namespace Hologotchi.Device

open Python Library Lines Inputs Touch Uplink

/-- A connection as the device writes it: the touches with a whole frame on it, and its bytes. -/
structure Link where
  sent : List Touch := []
  bytes : List UInt8 := []

/-- Who put an item into the queue. -/
inductive Origin
  | pad
  | other
  deriving DecidableEq

structure Pipeline where
  device : State := {}
  links : ℕ → Link := fun _ => {}
  /-- How many connections the device has accepted. -/
  accepted : ℕ := 0
  /-- The connections that the reader was attached to, and how many bytes it has read of each. -/
  reads : List (ℕ × ℕ) := []
  buffer : List UInt8 := []
  /-- The calls of the sink that the reader has yet to make. -/
  calls : List TouchCall := []
  /-- The item of a call that has taken its id. -/
  submitting : Option HostInput := none
  queue : HostInputQueue := {}
  /-- Everything that was put into the queue. -/
  log : List (Origin × HostInput) := []
  /-- What the loop has taken out of it. -/
  taken : List HostInput := []

/-- What of a line can have gone out when its `write_all` ends without writing it all. -/
def State.Cuts (s : State) (part : List UInt8) : Prop :=
  part = [] ∨ ∃ t line, s.server = .serving (some (t, line)) ∧ part <+: line ∧ part ≠ line

/-- A step of the device that neither begins nor ends a connection nor writes on it. -/
def Label.Local : Label → Prop
  | .accept | .written | .writeFailed | .readerEnded => False
  | _ => True

namespace Pipeline

/-- The link that the device accepted last. -/
def current (s : Pipeline) : Link := s.links (s.accepted - 1)

def writeLink (s : Pipeline) (l : Link) : ℕ → Link := Function.update s.links (s.accepted - 1) l

inductive Step (loads : Str → Option Json) : Pipeline → Pipeline → Prop
  | task {s : Pipeline} {a : Label} {d : State} (h : Device.Step s.device a d) (ha : a.Local) :
      Step loads s { s with device := d }
  | accept {s : Pipeline} {d : State} (h : Device.Step s.device .accept d) :
      Step loads s { s with device := d, accepted := s.accepted + 1 }
  | written {s : Pipeline} {d : State} {t : Touch} {line : List UInt8}
      (h : Device.Step s.device .written d) (hw : s.device.server = .serving (some (t, line))) :
      Step loads s { s with
        device := d
        links := s.writeLink ⟨s.current.sent ++ [t], s.current.bytes ++ line⟩ }
  /-- The connection ends, maybe inside a line. -/
  | ended {s : Pipeline} {a : Label} {d : State} {part : List UInt8}
      (h : Device.Step s.device a d) (ha : a = .writeFailed ∨ a = .readerEnded)
      (hpart : s.device.Cuts part) :
      Step loads s { s with
        device := d
        links := s.writeLink ⟨s.current.sent, s.current.bytes ++ part⟩ }
  /-- The reader goes on with another socket. -/
  | attach {s : Pipeline} {j : ℕ} (hidle : s.calls = [] ∧ s.submitting = none)
      (hj : j < s.accepted) (hnew : j ∉ s.reads.map Prod.fst) :
      Step loads s { s with reads := s.reads ++ [(j, 0)], buffer := [] }
  | received {s : Pipeline} {past : List (ℕ × ℕ)} {j n : ℕ} {data : List UInt8}
      (hidle : s.calls = [] ∧ s.submitting = none) (hreads : s.reads = past ++ [(j, n)])
      (hdata : data <+: (s.links j).bytes.drop n) (hne : data ≠ [])
      (hlen : data.length ≤ recvBytes) :
      Step loads s { s with
        reads := past ++ [(j, n + data.length)]
        buffer := (readData loads s.buffer data).1
        calls := (readData loads s.buffer data).2 }
  | claim {s : Pipeline} {call : TouchCall} {calls : List TouchCall} {item : HostInput}
      {q : HostInputQueue} (hcalls : s.calls = call :: calls) (hidle : s.submitting = none)
      (hitem : s.queue.submitTouch (.str call.1) (durationValue call.2) = .ok (item, q)) :
      Step loads s { s with
        calls := calls
        submitting := some item
        queue := { s.queue with nextId := q.nextId } }
  /-- The sink drops a call that the queue does not admit. -/
  | refused {s : Pipeline} {call : TouchCall} {calls : List TouchCall} {e : SubmitError}
      (hcalls : s.calls = call :: calls) (hidle : s.submitting = none)
      (herror : s.queue.submitTouch (.str call.1) (durationValue call.2) = .error e) :
      Step loads s { s with calls := calls }
  | put {s : Pipeline} {item : HostInput} (hitem : s.submitting = some item) :
      Step loads s { s with
        submitting := none
        queue := s.queue.enqueue item
        log := s.log ++ [(.pad, item)] }
  /-- Another thread takes an id, sets the flag of a presence signal or clears it. -/
  | queue {s : Pipeline} {q : HostInputQueue} (hq : q.items = s.queue.items) :
      Step loads s { s with queue := q }
  | putOther {s : Pipeline} {item : HostInput} :
      Step loads s { s with
        queue := s.queue.enqueue item
        log := s.log ++ [(.other, item)] }
  | take {s : Pipeline} {item : HostInput} {items : List HostInput}
      (hq : s.queue.items = item :: items) :
      Step loads s { s with queue := { s.queue with items }, taken := s.taken ++ [item] }

end Pipeline

/-- The touches whose frames are whole among the first `n` bytes. -/
def Link.arrived (l : Link) (n : ℕ) : List Touch := l.sent.take ((l.bytes.take n).count newline)

/-- The input that a touch becomes. -/
def inputOf (t : Touch) (id : Str) : HostInput :=
  touchInput (str t.1.name) (t.1.durationMs.map (min · touchDurationMaxMs)) id

def IsInput (t : Touch) (item : HostInput) : Prop := item = inputOf t item.id

namespace Pipeline

/-- The touches that the reader has read, connection by connection. -/
def arrived (s : Pipeline) : List Touch := s.reads.flatMap fun r => (s.links r.1).arrived r.2

/-- What the reader put into the queue. -/
def uplinked (s : Pipeline) : List HostInput :=
  (s.log.filter fun entry => entry.1 = .pad).map Prod.snd

end Pipeline

variable {s : State} {u : State} {a : Label} {t : Touch} {l : Link} {n : ℕ}

/-! ### The order on the device -/

/-- The touches that are sent or on their way, oldest first. -/
def State.ahead (s : State) : List Touch := s.sent ++ s.server.held ++ s.inputChannel

theorem enqueueInput_sublist (channel : List Touch) (t : Touch) :
    (enqueueInput channel t).1.Sublist (channel ++ [t]) := by
  by_cases hroom : channel.length < inputQueueLen
  · rw [enqueueInput_room hroom]
  · have hfull : trySend channel t = none := if_neg hroom
    simp only [enqueueInput, hfull]
    by_cases hlast : (channel.drop 1).length < inputQueueLen
    · rw [trySend, if_pos hlast]
      exact (List.drop_sublist 1 channel).append_right [t]
    · rw [trySend, if_neg hlast]
      exact (List.drop_sublist 1 channel).trans (List.sublist_append_left _ _)

theorem onGesture_ahead (h : s.ahead.Sublist s.classified.zipIdx) (g : Gesture) :
    (s.onGesture g).ahead.Sublist (s.onGesture g).classified.zipIdx := by
  cases hhost : s.hostConnected with
  | true =>
    simp only [State.onGesture, hhost, if_true, State.enqueue, State.ahead, classified_append]
    have hchannel := enqueueInput_sublist s.inputChannel (g, s.classified.length)
    refine ((List.Sublist.refl (s.sent ++ s.server.held)).append hchannel).trans ?_
    rw [← List.append_assoc]
    exact h.append (List.Sublist.refl _)
  | false =>
    simp only [State.onGesture, hhost, Bool.false_eq_true, if_false, State.acknowledge,
      State.queueBehaviorUpdate, classified_append]
    exact h.trans (List.sublist_append_left _ _)

/-- Touches are sent in the order they were made. -/
theorem step_ahead (hs : Step s a u) (h : s.ahead.Sublist s.classified.zipIdx) :
    u.ahead.Sublist u.classified.zipIdx := by
  cases hs with
  | sample pressed nowMs =>
    rcases hupdate : s.classifier.update pressed nowMs with ⟨classifier, gesture⟩
    have hclassifier : ({ s with classifier } : State).ahead.Sublist s.classified.zipIdx := h
    simp only [State.sample, hupdate]
    cases gesture with
    | none => exact h
    | some g => exact onGesture_ahead hclassifier g
  | accept hserver =>
    refine List.Sublist.trans ?_ h
    simp only [State.ahead, State.accept, Server.held, List.append_nil, List.append_assoc]
    exact List.sublist_append_left _ _
  | acceptFailed => exact h
  | downlink => exact h
  | receive hserver hchannel =>
    simp only [State.ahead, hserver, hchannel, Server.held, List.append_nil] at h
    simpa only [State.ahead, State.receive, Server.held, List.append_assoc, List.singleton_append]
      using h
  | @passOver t rest hserver hchannel =>
    refine List.Sublist.trans ?_ h
    simp only [State.ahead, State.passOver, hchannel]
    exact (List.Sublist.refl _).append (List.sublist_cons_self t rest)
  | written hserver =>
    simp only [State.ahead, hserver, Server.held] at h
    simpa only [State.ahead, State.written, Server.held, List.append_nil] using h
  | writeFailed hserver =>
    refine List.Sublist.trans ?_ h
    simp only [State.ahead, State.disconnect, State.acknowledge, State.queueBehaviorUpdate,
      Server.held, List.append_nil, List.append_assoc]
    exact (List.Sublist.refl _).append (List.sublist_append_right _ _)
  | readerEnded hserver =>
    refine List.Sublist.trans ?_ h
    simp only [State.ahead, State.cancelWriter, State.disconnect, Server.held, List.append_nil,
      List.append_assoc]
    exact (List.Sublist.refl _).append (List.sublist_append_right _ _)
  | render => exact h

/-! ### The bytes of a link -/

/-- The line of a touch. -/
def body (t : Touch) : List UInt8 := encodeAscii (FlatJson.print t.1.inputFields)

/-- The frames of the touches sent, and a part of one more. -/
structure Link.Whole (l : Link) (part : List UInt8) : Prop where
  bytes : l.bytes = joinLines newline (l.sent.map body) part
  part : newline ∉ part ∧ part.length ≤ maxUplinkLineBytes

theorem encodeInputFrame_eq_body (t : Touch) :
    encodeInputFrame t.1 = some (body t ++ [newline]) ∧ newline ∉ body t ∧
      (body t).length ≤ maxUplinkLineBytes := by
  obtain ⟨_, rfl, hframe, hfree, hlen, -⟩ := encodeInputFrame_body t.1
  refine ⟨hframe, hfree, ?_⟩
  rw [List.length_append, List.length_singleton, inputFrameCapacity] at hlen
  rw [body, maxUplinkLineBytes]
  omega

theorem lines_free (ts : List Touch) :
    ∀ line ∈ ts.map body, newline ∉ line ∧ line.length ≤ maxUplinkLineBytes := by
  intro line hline
  obtain ⟨t, -, rfl⟩ := List.mem_map.mp hline
  exact (encodeInputFrame_eq_body t).2

theorem whole_empty : Link.Whole {} [] := ⟨rfl, List.not_mem_nil, Nat.zero_le _⟩

theorem whole_written (h : l.Whole []) (t : Touch) :
    Link.Whole ⟨l.sent ++ [t], l.bytes ++ (body t ++ [newline])⟩ [] := by
  refine ⟨?_, h.part⟩
  simp only [h.bytes, joinLines, List.append_nil, List.map_append, List.flatMap_append,
    List.map_singleton, List.flatMap_singleton]

theorem whole_ended {part : List UInt8} (h : l.Whole [])
    (hpart : newline ∉ part ∧ part.length ≤ maxUplinkLineBytes) :
    Link.Whole ⟨l.sent, l.bytes ++ part⟩ part := by
  refine ⟨?_, hpart⟩
  simp only [h.bytes, joinLines, List.append_nil]

/-- A write that is cut short leaves no whole line. -/
theorem cuts_part {part : List UInt8} (h : s.Cuts part) (hs : Balanced s) :
    newline ∉ part ∧ part.length ≤ maxUplinkLineBytes := by
  rcases h with rfl | ⟨t, line, hserver, hprefix, hne⟩
  · exact ⟨List.not_mem_nil, Nat.zero_le _⟩
  · obtain ⟨hframe, hfree, hlen⟩ := encodeInputFrame_eq_body t
    obtain rfl : line = body t ++ [newline] :=
      Option.some.inj ((hs.writing t line hserver).symm.trans hframe)
    rcases List.prefix_concat_iff.mp hprefix with heq | hshort
    · exact absurd heq hne
    · exact ⟨fun hmem => hfree (hshort.subset hmem), hshort.length_le.trans hlen⟩

theorem count_bytes {part : List UInt8} (h : l.Whole part) :
    l.bytes.count newline = l.sent.length := by
  have hsplit := splitLines_joinLines (fun line hline => (lines_free l.sent line hline).1) h.part.1
  rw [← length_splitLines, h.bytes, hsplit, List.length_map]

/-- What was read of a link before it was written on is the same afterwards. -/
structure Link.Grows (l l' : Link) : Prop where
  length_le : l.bytes.length ≤ l'.bytes.length
  same : ∀ n ≤ l.bytes.length, l'.bytes.take n = l.bytes.take n ∧ l'.arrived n = l.arrived n

theorem grows_refl (l : Link) : l.Grows l := ⟨le_rfl, fun _ _ => ⟨rfl, rfl⟩⟩

theorem grows_append {part : List UInt8} (h : l.Whole part) (ts : List Touch) (more : List UInt8) :
    l.Grows ⟨l.sent ++ ts, l.bytes ++ more⟩ := by
  refine ⟨by simp, fun n hn => ?_⟩
  have htake : (l.bytes ++ more).take n = l.bytes.take n := List.take_append_of_le_length hn
  have hcount : (l.bytes.take n).count newline ≤ l.sent.length := by
    rw [← count_bytes h]
    exact (List.take_sublist n l.bytes).count_le newline
  refine ⟨htake, ?_⟩
  rw [Link.arrived, Link.arrived, htake, List.take_append_of_le_length hcount]

theorem lines_take {part : List UInt8} (h : l.Whole part) (n : ℕ) :
    (splitLines newline (l.bytes.take n)).1 = (l.arrived n).map body := by
  have hprefix : l.bytes.take n <+: joinLines newline (l.sent.map body) part :=
    h.bytes ▸ List.take_prefix n l.bytes
  rw [splitLines_of_cut (fun line hline => (lines_free l.sent line hline).1) h.part.1 hprefix,
    Link.arrived, List.map_take]

theorem parse_lines {loads : Str → Option Json} (hloads : ParsesFrames loads) (ts : List Touch) :
    (ts.map body).filterMap (parseInputFrame loads) = ts.map fun t => sinkCall t.1 := by
  induction ts with
  | nil => rfl
  | cons t ts ih =>
    have hcall : parseInputFrame loads (body t) = some (sinkCall t.1) :=
      parseInputFrame_body hloads t.1
    rw [List.map_cons, List.filterMap_cons_some hcall, ih, List.map_cons]

/-- A read completes the lines of some touches. -/
theorem readData_link {loads : Str → Option Json} (hloads : ParsesFrames loads)
    {part data : List UInt8} (h : l.Whole part) (hdata : data <+: l.bytes.drop n) :
    ∃ new, l.arrived (n + data.length) = l.arrived n ++ new ∧
      readData loads (splitLines newline (l.bytes.take n)).2 data =
        ((splitLines newline (l.bytes.take (n + data.length))).2,
          new.map fun t => sinkCall t.1) := by
  have htake : l.bytes.take (n + data.length) = l.bytes.take n ++ data := by
    rw [List.take_add, ← List.prefix_iff_eq_take.mp hdata]
  have hmore : l.arrived n <+: l.arrived (n + data.length) := by
    refine List.take_prefix_take_left ?_
    rw [htake, List.count_append]
    exact Nat.le_add_right _ _
  obtain ⟨new, hnew⟩ := hmore
  have hprefix : l.bytes.take (n + data.length) <+: joinLines newline (l.sent.map body) part :=
    h.bytes ▸ List.take_prefix _ l.bytes
  have hopen := length_open_le (lines_free l.sent) h.part hprefix
  have hlines := lines_take h (n + data.length)
  rw [← hnew, List.map_append, ← lines_take h n] at hlines
  rw [htake, splitLines_append] at hlines hopen
  have hcompleted := List.append_cancel_left hlines
  have hread : readData loads (splitLines newline (l.bytes.take n)).2 data =
      (if maxUplinkLineBytes < (splitLines newline
          ((splitLines newline (l.bytes.take n)).2 ++ data)).2.length then []
        else (splitLines newline ((splitLines newline (l.bytes.take n)).2 ++ data)).2,
      (splitLines newline ((splitLines newline (l.bytes.take n)).2 ++ data)).1.filterMap
        (parseInputFrame loads)) := rfl
  refine ⟨new, hnew.symm, ?_⟩
  rw [hread, hcompleted, parse_lines hloads, if_neg (Nat.not_lt.mpr hopen), htake,
    splitLines_append (l.bytes.take n) data]

/-! ### What the steps keep -/

namespace Pipeline

/-- The device and the links. -/
structure Written (device : State) (links : ℕ → Link) (accepted : ℕ) : Prop where
  balanced : Balanced device
  ahead : device.ahead.Sublist device.classified.zipIdx
  fresh : ∀ j, accepted ≤ j → links j = {}
  sent : (List.range accepted).flatMap (fun j => (links j).sent) = device.sent
  whole : ∀ j, ∃ part, (links j).Whole part
  serving : device.server ≠ .listening → 0 < accepted ∧ (links (accepted - 1)).Whole []

/-- The reader, the queue and the loop. -/
structure Carried (s : Pipeline) : Prop where
  nodup : (s.reads.map Prod.fst).Nodup
  reads : ∀ r ∈ s.reads, r.1 < s.accepted ∧ r.2 ≤ (s.links r.1).bytes.length
  buffer : ∀ r ∈ s.reads.getLast?,
    s.buffer = (splitLines newline ((s.links r.1).bytes.take r.2)).2
  fifo : s.taken ++ s.queue.items = s.log.map Prod.snd
  calls : ∃ done rest, s.arrived = done ++ rest ∧
    List.Forall₂ IsInput done (s.uplinked ++ s.submitting.toList) ∧
    s.calls = rest.map fun t => sinkCall t.1

variable {s : Pipeline} {d : State} {links links' : ℕ → Link} {accepted : ℕ}
  {loads : Str → Option Json}

theorem written_start : Written {} (fun _ => {}) 0 where
  balanced := balanced_initial
  ahead := List.Sublist.refl _
  fresh _ _ := rfl
  sent := rfl
  whole _ := ⟨[], whole_empty⟩
  serving h := absurd rfl h

theorem carried_start : Carried {} :=
  ⟨.nil, nofun, nofun, rfl, [], [], rfl, .nil, rfl⟩

/-- A step that sends nothing and begins no connection. -/
theorem written_quiet {a : Label} (h : Written s.device s.links s.accepted)
    (hstep : Device.Step s.device a d) (hsent : d.sent = s.device.sent)
    (hserver : d.server ≠ .listening → s.device.server ≠ .listening) :
    Written d s.links s.accepted where
  balanced := step_balanced hstep h.balanced
  ahead := step_ahead hstep h.ahead
  fresh := h.fresh
  sent := h.sent.trans hsent.symm
  whole := h.whole
  serving hd := h.serving (hserver hd)

theorem sample_writer (s : State) (pressed : Bool) (nowMs : ℕ) :
    (s.sample pressed nowMs).sent = s.sent ∧ (s.sample pressed nowMs).server = s.server := by
  rcases hupdate : s.classifier.update pressed nowMs with ⟨classifier, gesture⟩
  simp only [State.sample, hupdate]
  cases gesture with
  | none => exact ⟨rfl, rfl⟩
  | some g =>
    simp only [State.onGesture]
    split <;> exact ⟨rfl, rfl⟩

theorem written_task {a : Label} (h : Written s.device s.links s.accepted)
    (hstep : Device.Step s.device a d) (ha : a.Local) : Written d s.links s.accepted := by
  cases hstep with
  | sample pressed nowMs =>
    obtain ⟨hsent, hserver⟩ := sample_writer s.device pressed nowMs
    exact written_quiet h (.sample pressed nowMs) hsent fun hd => hserver ▸ hd
  | acceptFailed hserver => exact written_quiet h (.acceptFailed hserver) rfl id
  | downlink update hserver => exact written_quiet h (.downlink update hserver) rfl id
  | receive hserver hchannel hline =>
    refine written_quiet h (.receive hserver hchannel hline) rfl fun _ => ?_
    simp [hserver]
  | passOver hserver hchannel hline =>
    exact written_quiet h (.passOver hserver hchannel hline) rfl id
  | render => exact written_quiet h .render rfl id
  | accept | written | writeFailed | readerEnded => exact ha.elim

/-- A connection begins. -/
theorem written_accept (h : Written s.device s.links s.accepted)
    (hstep : Device.Step s.device .accept d) : Written d s.links (s.accepted + 1) := by
  have hbalanced := step_balanced hstep h.balanced
  have hahead := step_ahead hstep h.ahead
  cases hstep with
  | accept hserver =>
    refine ⟨hbalanced, hahead, fun j hj => h.fresh j (by omega), ?_, h.whole, fun _ => ?_⟩
    · have hnew := h.fresh s.accepted le_rfl
      rw [List.range_succ, List.flatMap_append, List.flatMap_singleton, hnew, List.append_nil]
      exact h.sent
    · have hnew := h.fresh s.accepted le_rfl
      rw [Nat.add_sub_cancel, hnew]
      exact ⟨Nat.succ_pos _, whole_empty⟩

/-- Of the links the device writes on the last one only. -/
theorem sent_update (links : ℕ → Link) (k : ℕ) (l : Link) :
    (List.range (k + 1)).flatMap (fun j => (Function.update links k l j).sent) =
      (List.range k).flatMap (fun j => (links j).sent) ++ l.sent := by
  rw [List.range_succ, List.flatMap_append, List.flatMap_singleton, Function.update_self]
  refine congrArg (· ++ l.sent) (List.flatMap_congr fun j hj => ?_)
  rw [Function.update_of_ne (List.mem_range.mp hj).ne]

/-- The device writes on its link, a whole line or the last part of one. -/
theorem written_writeLink {ts : List Touch} {more part : List UInt8}
    (h : Written s.device s.links s.accepted) (hbalanced : Balanced d)
    (hahead : d.ahead.Sublist d.classified.zipIdx) (hserving : s.device.server ≠ .listening)
    (hsent : d.sent = s.device.sent ++ ts)
    (hwhole : Link.Whole ⟨s.current.sent ++ ts, s.current.bytes ++ more⟩ part)
    (hpart : d.server ≠ .listening → part = []) :
    Written d (s.writeLink ⟨s.current.sent ++ ts, s.current.bytes ++ more⟩) s.accepted := by
  obtain ⟨hpos, -⟩ := h.serving hserving
  obtain ⟨k, hk⟩ : ∃ k, s.accepted = k + 1 := ⟨s.accepted - 1, by omega⟩
  have hlast : s.accepted - 1 = k := by omega
  rw [writeLink]
  refine ⟨hbalanced, hahead, fun j hj => ?_, ?_, fun j => ?_, fun hd => ⟨hpos, ?_⟩⟩
  · rw [Function.update_of_ne (by omega)]
    exact h.fresh j hj
  · have hold := h.sent
    rw [hk, List.range_succ, List.flatMap_append, List.flatMap_singleton] at hold
    rw [hlast, hk, sent_update, hsent, ← hold, current, hlast, List.append_assoc]
  · by_cases hj : j = s.accepted - 1
    · rw [hj, Function.update_self]
      exact ⟨part, hwhole⟩
    · rw [Function.update_of_ne hj]
      exact h.whole j
  · rw [Function.update_self, ← hpart hd]
    exact hwhole

/-- What the device does does not change what was read of its links. -/
theorem carried_links {accepted : ℕ} (h : Carried s) (haccepted : s.accepted ≤ accepted)
    (hlinks : ∀ j, (s.links j).Grows (links j)) :
    Carried { s with device := d, links := links, accepted := accepted } := by
  have harrived : ∀ r ∈ s.reads, (links r.1).arrived r.2 = (s.links r.1).arrived r.2 :=
    fun r hr => ((hlinks r.1).same r.2 (h.reads r hr).2).2
  refine ⟨h.nodup, fun r hr => ?_, fun r hr => ?_, h.fifo, ?_⟩
  · obtain ⟨hj, hn⟩ := h.reads r hr
    exact ⟨hj.trans_le haccepted, hn.trans (hlinks r.1).length_le⟩
  · have htake := ((hlinks r.1).same r.2 (h.reads r (List.mem_of_getLast? hr)).2).1
    change s.buffer = (splitLines newline ((links r.1).bytes.take r.2)).2
    rw [htake]
    exact h.buffer r hr
  · have hsame : s.reads.flatMap (fun r => (links r.1).arrived r.2) = s.arrived :=
      List.flatMap_congr harrived
    obtain ⟨done, rest, hsplit, hdone, hrest⟩ := h.calls
    exact ⟨done, rest, hsame.trans hsplit, hdone, hrest⟩

theorem grows_writeLink {ts : List Touch} {more : List UInt8}
    (h : Written s.device s.links s.accepted) (j : ℕ) :
    (s.links j).Grows (s.writeLink ⟨s.current.sent ++ ts, s.current.bytes ++ more⟩ j) := by
  rw [writeLink]
  by_cases hj : j = s.accepted - 1
  · subst hj
    obtain ⟨part, hwhole⟩ := h.whole (s.accepted - 1)
    rw [Function.update_self]
    exact grows_append hwhole ts more
  · rw [Function.update_of_ne hj]
    exact grows_refl _

/-! ### The reader, the queue and the loop -/

/-- The input of a call is that of its touch. -/
theorem submitTouch_sinkCall (q : HostInputQueue) (t : Touch) :
    q.submitTouch (.str (sinkCall t.1).1) (durationValue (sinkCall t.1).2) =
      .ok (q.put "touch-" (inputOf t)) := by
  obtain ⟨hgesture, hduration⟩ := submittable_sinkCall t.1
  have hclean : cleanTouchDuration (durationValue (sinkCall t.1).2) =
      .ok (t.1.durationMs.map (min · touchDurationMaxMs)) := by
    cases hd : t.1.durationMs with
    | none => simp only [sinkCall, hd, durationValue, cleanTouchDuration, Option.map_none]
    | some d =>
      obtain ⟨hpos, hfits⟩ := hduration d hd
      simp only [sinkCall, hd, durationValue, cleanTouchDuration, hfits, Bool.not_true,
        Bool.false_eq_true, if_false, if_neg (not_lt.mpr hpos), Option.map_some]
  simp only [HostInputQueue.submitTouch, clean_touchGestures hgesture, hclean]
  rfl

theorem isInput_put (q : HostInputQueue) (t : Touch) : IsInput t (q.put "touch-" (inputOf t)).1 :=
  rfl

theorem carried_attach {j : ℕ} (h : Carried s)
    (hj : j < s.accepted) (hnew : j ∉ s.reads.map Prod.fst) :
    Carried { s with reads := s.reads ++ [(j, 0)], buffer := [] } := by
  refine ⟨?_, fun r hr => ?_, fun r hr => ?_, h.fifo, ?_⟩
  · change ((s.reads ++ [(j, 0)]).map Prod.fst).Nodup
    rw [List.map_append]
    exact h.nodup.append (List.nodup_singleton j) (by simpa using hnew)
  · rcases List.mem_append.mp hr with hr | hr
    · exact h.reads r hr
    · obtain rfl := List.mem_singleton.mp hr
      exact ⟨hj, Nat.zero_le _⟩
  · rw [List.getLast?_concat] at hr
    obtain rfl := Option.some.inj hr
    rfl
  · obtain ⟨done, rest, hsplit, hdone, hrest⟩ := h.calls
    refine ⟨done, rest, ?_, hdone, hrest⟩
    have hnone : (s.links j).arrived 0 = [] := rfl
    change (s.reads ++ [(j, 0)]).flatMap (fun r : ℕ × ℕ => (s.links r.1).arrived r.2) = done ++ rest
    rw [List.flatMap_append, List.flatMap_singleton, hnone, List.append_nil]
    exact hsplit

theorem carried_received (hloads : ParsesFrames loads) {past : List (ℕ × ℕ)} {j n : ℕ}
    {data : List UInt8} (hw : Written s.device s.links s.accepted) (h : Carried s)
    (hidle : s.calls = [] ∧ s.submitting = none) (hreads : s.reads = past ++ [(j, n)])
    (hdata : data <+: (s.links j).bytes.drop n) :
    Carried { s with
      reads := past ++ [(j, n + data.length)]
      buffer := (readData loads s.buffer data).1
      calls := (readData loads s.buffer data).2 } := by
  obtain ⟨part, hwhole⟩ := hw.whole j
  obtain ⟨new, hnew, hread⟩ := readData_link hloads hwhole hdata
  have hbuffer : s.buffer = (splitLines newline ((s.links j).bytes.take n)).2 :=
    h.buffer (j, n) (by rw [hreads, List.getLast?_concat]; rfl)
  have hmem : (j, n) ∈ s.reads := by
    rw [hreads]
    exact List.mem_append_right _ (List.mem_singleton_self _)
  have hle : n + data.length ≤ (s.links j).bytes.length := by
    have hlen := hdata.length_le
    have hn : n ≤ (s.links j).bytes.length := (h.reads (j, n) hmem).2
    rw [List.length_drop] at hlen
    omega
  have hfirst : (past ++ [(j, n + data.length)]).map Prod.fst = s.reads.map Prod.fst := by
    rw [hreads, List.map_append, List.map_append]
    rfl
  rw [hbuffer, hread]
  refine ⟨?_, fun r hr => ?_, fun r hr => ?_, h.fifo, ?_⟩
  · change ((past ++ [(j, n + data.length)]).map Prod.fst).Nodup
    rw [hfirst]
    exact h.nodup
  · rcases List.mem_append.mp hr with hr | hr
    · exact h.reads r (hreads ▸ List.mem_append_left _ hr)
    · obtain rfl := List.mem_singleton.mp hr
      exact ⟨(h.reads (j, n) hmem).1, hle⟩
  · rw [List.getLast?_concat] at hr
    obtain rfl := Option.some.inj hr
    rfl
  · obtain ⟨done, rest, hsplit, hdone, hrest⟩ := h.calls
    obtain rfl : rest = [] := List.map_eq_nil_iff.mp (hrest.symm.trans hidle.1)
    have hold : past.flatMap (fun r => (s.links r.1).arrived r.2) ++ (s.links j).arrived n =
        done := by
      rw [List.append_nil] at hsplit
      rw [← hsplit, arrived, hreads, List.flatMap_append, List.flatMap_singleton]
    refine ⟨done, new, ?_, hdone, rfl⟩
    change (past ++ [(j, n + data.length)]).flatMap (fun r => (s.links r.1).arrived r.2) =
      done ++ new
    rw [List.flatMap_append, List.flatMap_singleton, hnew, ← hold, List.append_assoc]

theorem carried_claim {call : TouchCall} {calls : List TouchCall} {item : HostInput}
    {q : HostInputQueue} (h : Carried s) (hcalls : s.calls = call :: calls)
    (hidle : s.submitting = none)
    (hitem : s.queue.submitTouch (.str call.1) (durationValue call.2) = .ok (item, q)) :
    Carried { s with
      calls := calls
      submitting := some item
      queue := { s.queue with nextId := q.nextId } } := by
  refine ⟨h.nodup, h.reads, h.buffer, h.fifo, ?_⟩
  obtain ⟨done, rest, hsplit, hdone, hrest⟩ := h.calls
  rw [hcalls] at hrest
  obtain ⟨t, rest, rfl, rfl, rfl⟩ := List.map_eq_cons_iff.mp hrest.symm
  rw [submitTouch_sinkCall] at hitem
  obtain rfl : (s.queue.put "touch-" (inputOf t)).1 = item :=
    congrArg Prod.fst (Except.ok.inj hitem)
  rw [hidle, Option.toList_none, List.append_nil] at hdone
  refine ⟨done ++ [t], rest, by rw [List.append_assoc]; exact hsplit, ?_, rfl⟩
  exact List.rel_append hdone (.cons (isInput_put s.queue t) .nil)

theorem carried_put {item : HostInput} (h : Carried s) (hitem : s.submitting = some item) :
    Carried { s with
      submitting := none
      queue := s.queue.enqueue item
      log := s.log ++ [(.pad, item)] } := by
  refine ⟨h.nodup, h.reads, h.buffer, ?_, ?_⟩
  · change s.taken ++ (s.queue.items ++ [item]) = (s.log ++ [(Origin.pad, item)]).map Prod.snd
    rw [← List.append_assoc, h.fifo, List.map_append, List.map_singleton]
  · obtain ⟨done, rest, hsplit, hdone, hrest⟩ := h.calls
    refine ⟨done, rest, hsplit, ?_, hrest⟩
    rw [hitem] at hdone
    simpa [uplinked] using hdone

theorem carried_putOther {item : HostInput} (h : Carried s) :
    Carried { s with
      queue := s.queue.enqueue item
      log := s.log ++ [(.other, item)] } := by
  refine ⟨h.nodup, h.reads, h.buffer, ?_, ?_⟩
  · change s.taken ++ (s.queue.items ++ [item]) = (s.log ++ [(Origin.other, item)]).map Prod.snd
    rw [← List.append_assoc, h.fifo, List.map_append, List.map_singleton]
  · obtain ⟨done, rest, hsplit, hdone, hrest⟩ := h.calls
    refine ⟨done, rest, hsplit, ?_, hrest⟩
    simpa [uplinked] using hdone

theorem carried_queue {q : HostInputQueue} (h : Carried s) (hq : q.items = s.queue.items) :
    Carried { s with queue := q } :=
  ⟨h.nodup, h.reads, h.buffer, hq ▸ h.fifo, h.calls⟩

theorem carried_take {item : HostInput} {items : List HostInput} (h : Carried s)
    (hq : s.queue.items = item :: items) :
    Carried { s with queue := { s.queue with items }, taken := s.taken ++ [item] } := by
  refine ⟨h.nodup, h.reads, h.buffer, ?_, h.calls⟩
  have hfifo := h.fifo
  rw [hq] at hfifo
  rw [← hfifo, List.append_assoc]
  rfl

/-! ### One step -/

/-- Everything that a step keeps. -/
structure Sound (s : Pipeline) : Prop extends Carried s where
  written : Written s.device s.links s.accepted

theorem sound_start : Sound {} := ⟨carried_start, written_start⟩

theorem listening_ended {s u : State} {a : Label} (h : Device.Step s a u)
    (ha : a = .writeFailed ∨ a = .readerEnded) :
    s.server ≠ .listening ∧ u.server = .listening ∧ u.sent = s.sent := by
  cases h <;> simp_all [State.disconnect, State.acknowledge, State.queueBehaviorUpdate,
    State.cancelWriter]

theorem sound_step (hloads : ParsesFrames loads) {t : Pipeline} (hstep : Step loads s t)
    (h : Sound s) : Sound t := by
  have hw := h.written
  cases hstep with
  | task hdevice ha =>
    have hnext := written_task hw hdevice ha
    exact ⟨carried_links h.toCarried le_rfl fun j => grows_refl _, hnext⟩
  | accept hdevice =>
    have hnext := written_accept hw hdevice
    exact ⟨carried_links h.toCarried (Nat.le_succ _) fun j => grows_refl _, hnext⟩
  | @written d t line hdevice hserver =>
    have hserving : s.device.server ≠ .listening := by simp [hserver]
    have hline : line = body t ++ [newline] :=
      Option.some.inj ((hw.balanced.writing t line hserver).symm.trans
        (encodeInputFrame_eq_body t).1)
    have hsent : d.sent = s.device.sent ++ [t] := by
      cases hdevice with
      | written hs =>
        rw [hserver] at hs
        injection hs with hs
        obtain ⟨rfl, -⟩ := Prod.mk.inj (Option.some.inj hs)
        rfl
    subst hline
    have hnext := written_writeLink hw (step_balanced hdevice hw.balanced)
      (step_ahead hdevice hw.ahead) hserving hsent (whole_written (hw.serving hserving).2 t)
      fun _ => rfl
    exact ⟨carried_links h.toCarried le_rfl (grows_writeLink hw), hnext⟩
  | @ended a d part hdevice ha hpart =>
    obtain ⟨hserving, hlistening, hsent⟩ := listening_ended hdevice ha
    have hwhole : Link.Whole ⟨s.current.sent, s.current.bytes ++ part⟩ part :=
      whole_ended (hw.serving hserving).2 (cuts_part hpart hw.balanced)
    rw [← List.append_nil s.current.sent] at hwhole ⊢
    have hnext := written_writeLink hw (step_balanced hdevice hw.balanced)
      (step_ahead hdevice hw.ahead) hserving (by rw [hsent, List.append_nil]) hwhole
      fun hd => absurd hlistening hd
    exact ⟨carried_links h.toCarried le_rfl (grows_writeLink hw), hnext⟩
  | attach _ hj hnew => exact ⟨carried_attach h.toCarried hj hnew, hw⟩
  | received hidle hreads hdata =>
    exact ⟨carried_received hloads hw h.toCarried hidle hreads hdata, hw⟩
  | claim hcalls hidle hitem => exact ⟨carried_claim h.toCarried hcalls hidle hitem, hw⟩
  | @refused call calls e hcalls hidle herror =>
    -- Every call is admitted.
    obtain ⟨done, rest, -, -, hrest⟩ := h.calls
    rw [hcalls] at hrest
    obtain ⟨t, rest, rfl, rfl, rfl⟩ := List.map_eq_cons_iff.mp hrest.symm
    rw [submitTouch_sinkCall] at herror
    cases herror
  | put hitem => exact ⟨carried_put h.toCarried hitem, hw⟩
  | queue hq => exact ⟨carried_queue h.toCarried hq, hw⟩
  | putOther => exact ⟨carried_putOther h.toCarried, hw⟩
  | take hq => exact ⟨carried_take h.toCarried hq, hw⟩

theorem sound_run (hloads : ParsesFrames loads) (h : Relation.ReflTransGen (Step loads) {} s) :
    Sound s := by
  induction h with
  | refl => exact sound_start
  | tail _ hstep ih => exact sound_step hloads hstep ih

/-! ### What reaches the loop -/

theorem sent_sublist (h : Written s.device s.links s.accepted) :
    s.device.sent.Sublist s.device.classified.zipIdx := by
  refine List.Sublist.trans ?_ h.ahead
  rw [State.ahead, List.append_assoc]
  exact List.sublist_append_left _ _

theorem sent_nodup (h : Written s.device s.links s.accepted) : s.device.sent.Nodup := by
  refine (sent_sublist h).nodup (List.Nodup.of_map Prod.snd ?_)
  rw [List.zipIdx_map_snd]
  exact List.nodup_range'

theorem arrived_subset (l : Link) (n : ℕ) : (l.arrived n).Sublist l.sent := List.take_sublist _ _

theorem mem_sent (h : Sound s) {t : Touch} (ht : t ∈ s.arrived) : t ∈ s.device.sent := by
  obtain ⟨r, hr, ht⟩ := List.mem_flatMap.mp ht
  rw [← h.written.sent]
  exact List.mem_flatMap.mpr
    ⟨r.1, List.mem_range.mpr (h.reads r hr).1, (arrived_subset _ _).subset ht⟩

/-- No touch is on two links. -/
theorem arrived_nodup (h : Sound s) : s.arrived.Nodup := by
  have hsent := sent_nodup h.written
  rw [← h.written.sent, List.nodup_flatMap] at hsent
  obtain ⟨hlinks, hdisjoint⟩ := hsent
  have hmem : ∀ r ∈ s.reads, r.1 ∈ List.range s.accepted :=
    fun r hr => List.mem_range.mpr (h.reads r hr).1
  refine List.nodup_flatMap.mpr ⟨fun r hr => ?_, ?_⟩
  · exact (hlinks r.1 (hmem r hr)).sublist (arrived_subset _ _)
  · refine (List.pairwise_map.mp h.nodup).imp_of_mem ?_
    intro r r' hr hr' hne t ht ht'
    have hsymm : Std.Symm (Function.onFun List.Disjoint fun j => (s.links j).sent) :=
      ⟨fun _ _ hapart => hapart.symm⟩
    have hapart := hdisjoint.forall (hmem r hr) (hmem r' hr') hne
    exact hapart ((arrived_subset _ _).subset ht) ((arrived_subset _ _).subset ht')

theorem arrived_sublist (h : Sound s) (hforward : (s.reads.map Prod.fst).Pairwise (· < ·)) :
    s.arrived.Sublist s.device.sent := by
  have hmem : s.reads.map Prod.fst ⊆ List.range s.accepted := by
    intro j hj
    obtain ⟨r, hr, rfl⟩ := List.mem_map.mp hj
    exact List.mem_range.mpr (h.reads r hr).1
  have hreads : (s.reads.map Prod.fst).Sublist (List.range s.accepted) :=
    List.sublist_of_subperm_of_pairwise (List.subperm_of_subset h.nodup hmem) hforward
      List.pairwise_lt_range
  have hpart : s.arrived.Sublist ((s.reads.map Prod.fst).flatMap fun j => (s.links j).sent) := by
    rw [List.flatMap_map]
    exact List.Sublist.flatMap_right s.reads fun r _ => arrived_subset _ _
  rw [← h.written.sent]
  exact hpart.trans (hreads.flatMap _)

/-- A link that was read to its end has given all its touches. -/
theorem arrived_all {j n : ℕ} (h : Written s.device s.links s.accepted)
    (hn : (s.links j).bytes.length ≤ n) : (s.links j).arrived n = (s.links j).sent := by
  obtain ⟨part, hwhole⟩ := h.whole j
  rw [Link.arrived, List.take_of_length_le hn, count_bytes hwhole, List.take_length]

/-- Whatever the pad, the connections, the reads, the other inputs and the loop do: the loop takes
what was put into the queue, once and in order; the reader puts the touches it has read, as the
inputs they become; and these are touches that were sent, none of them twice, in the order they were
made as long as the reader takes no older connection after a newer one, and all of them once it has
read every connection to its end. -/
theorem touches_reach_loop (hloads : ParsesFrames loads)
    (h : Relation.ReflTransGen (Step loads) {} s) :
    s.taken ++ s.queue.items = s.log.map Prod.snd ∧
    (∃ done rest, s.arrived = done ++ rest ∧
      List.Forall₂ IsInput done (s.uplinked ++ s.submitting.toList) ∧
      s.calls = rest.map fun t => sinkCall t.1) ∧
    s.arrived.Nodup ∧ (∀ t ∈ s.arrived, t ∈ s.device.sent) ∧
    s.device.sent.Sublist s.device.classified.zipIdx ∧
    ((s.reads.map Prod.fst).Pairwise (· < ·) → s.arrived.Sublist s.device.sent) ∧
    ((∀ j < s.accepted, ∃ n, (j, n) ∈ s.reads ∧ (s.links j).bytes.length ≤ n) →
      ∀ t ∈ s.device.sent, t ∈ s.arrived) := by
  have hs := sound_run hloads h
  refine ⟨hs.fifo, hs.calls, arrived_nodup hs, fun t ht => mem_sent hs ht,
    sent_sublist hs.written, arrived_sublist hs, ?_⟩
  intro hread t ht
  rw [← hs.written.sent] at ht
  obtain ⟨j, hj, ht⟩ := List.mem_flatMap.mp ht
  obtain ⟨n, hmem, hn⟩ := hread j (List.mem_range.mp hj)
  exact List.mem_flatMap.mpr ⟨(j, n), hmem, (arrived_all hs.written hn).symm ▸ ht⟩

/-- What is on the two connections of the run below. -/
def firstBytes : List UInt8 := [] ++ frameOf .tap ++ (frameOf (.hold 1000)).take 30

def secondBytes : List UInt8 := [] ++ frameOf .doubleTap

/-- A tap, a hold whose line is cut short, and a double tap on the next connection: the reader takes
the first line in two parts and the cut one with it, then goes on with the other connection. -/
theorem touches_reach_loop_cut_line : ∃ s : Pipeline, Relation.ReflTransGen (Step flatLoads) {} s ∧
    s.taken = [inputOf (.tap, 0) (str "touch-1"), inputOf (.doubleTap, 2) (str "touch-2")] ∧
    s.arrived = [(.tap, 0), (.doubleTap, 2)] ∧ s.device.classified = [.tap, .hold 1000, .doubleTap] ∧
    s.arrived.Sublist s.device.sent := by
  have htap : encodeInputFrame .tap = some (frameOf .tap) := by decide +kernel
  have hhold : encodeInputFrame (.hold 1000) = some (frameOf (.hold 1000)) := by decide +kernel
  have hdouble : encodeInputFrame .doubleTap = some (frameOf .doubleTap) := by decide +kernel
  have hcut : (frameOf (.hold 1000)).take 30 <+: frameOf (.hold 1000) ∧
      (frameOf (.hold 1000)).take 30 ≠ frameOf (.hold 1000) := by decide +kernel
  have hfirst : (frameOf .tap).take 20 <+: firstBytes.drop 0 := by decide +kernel
  have hsecond : (frameOf .tap).drop 20 ++ (frameOf (.hold 1000)).take 30 <+:
      firstBytes.drop (0 + ((frameOf .tap).take 20).length) := by decide +kernel
  have hthird : frameOf .doubleTap <+: secondBytes.drop 0 := by decide +kernel
  have hrun : ∃ s : Pipeline, Relation.ReflTransGen (Step flatLoads) {} s ∧
      s.taken = [inputOf (.tap, 0) (str "touch-1"), inputOf (.doubleTap, 2) (str "touch-2")] ∧
      s.arrived = [(.tap, 0), (.doubleTap, 2)] ∧
      s.device.classified = [.tap, .hold 1000, .doubleTap] ∧
      (s.reads.map Prod.fst).Pairwise (· < ·) := by
    refine ⟨_, .head (.accept (.accept rfl)) (.head (.task (.sample false 0) trivial)
      (.head (.task (.sample true 10) trivial) (.head (.task (.sample true 50) trivial)
      (.head (.task (.sample false 60) trivial) (.head (.task (.sample false 100) trivial)
      (.head (.task (.sample false 500) trivial) (.head (.task (.receive rfl rfl htap) trivial)
      (.head (.written (.written rfl) rfl)
      (.head (.task (.sample true 600) trivial) (.head (.task (.sample true 650) trivial)
      (.head (.task (.sample false 1600) trivial) (.head (.task (.sample false 1650) trivial)
      (.head (.task (.receive rfl rfl hhold) trivial)
      (.head (.ended (.writeFailed rfl) (.inl rfl) (.inr ⟨_, _, rfl, hcut⟩))
      (.head (.accept (.accept rfl))
      (.head (.task (.sample true 2000) trivial) (.head (.task (.sample true 2050) trivial)
      (.head (.task (.sample false 2100) trivial) (.head (.task (.sample false 2150) trivial)
      (.head (.task (.sample true 2200) trivial) (.head (.task (.sample true 2250) trivial)
      (.head (.task (.receive rfl rfl hdouble) trivial) (.head (.written (.written rfl) rfl)
      (.head (.attach ⟨rfl, rfl⟩ (show 0 < 2 by decide) List.not_mem_nil)
      (.head (.received ⟨rfl, rfl⟩ rfl hfirst (by decide +kernel) (by decide +kernel))
      (.head (.received ⟨rfl, rfl⟩ rfl hsecond (by decide +kernel) (by decide +kernel))
      (.head (.claim rfl rfl rfl) (.head (.put rfl)
      (.head (.attach ⟨rfl, rfl⟩ (show 1 < 2 by decide) (by decide))
      (.head (.received ⟨rfl, rfl⟩ rfl hthird (by decide +kernel) (by decide +kernel))
      (.head (.claim rfl rfl rfl) (.head (.put rfl) (.head (.take rfl)
      (.single (.take rfl))))))))))))))))))))))))))))))))))), rfl, ?_, ?_, ?_⟩
    · decide +kernel
    · decide +kernel
    · decide +kernel
  obtain ⟨s, hreach, htaken, harrived, hclassified, hforward⟩ := hrun
  obtain ⟨-, -, -, -, -, hordered, -⟩ := touches_reach_loop parsesFrames_flatLoads hreach
  exact ⟨s, hreach, htaken, harrived, hclassified, hordered hforward⟩

end Pipeline

end Hologotchi.Device
