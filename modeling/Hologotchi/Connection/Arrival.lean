import Hologotchi.Connection.Wire
import Hologotchi.Firmware.FlatDecoder
import Hologotchi.Firmware.Stream

/-! What the device reads of the behaviors that the threads of the host send. -/
namespace Hologotchi.Connection

open Python Library Lines Protocol Firmware

/-- What is on the wire when the behavior has gone out. -/
def Delivery.upTo (d : Delivery) : List UInt8 := d.before ++ payload d.command

/-- What the device reads of the behavior when it stands on a line of its own. -/
def Delivery.lines (d : Delivery) : List (List UInt8) := controlLines (payload d.command)

variable {ι : Type*}

/-- The behaviors sent on a socket of which the line feed is among the bytes seen. -/
def State.arrived (s : State ι) (sock : Socket) (seen : List UInt8) : List Delivery :=
  s.delivered.filter fun d => d.sock = sock ∧ d.upTo.length ≤ seen.length

/-- The step breaks off nothing that it has begun to write on the socket. -/
def Unbroken (sock : Socket) (s : State ι) : Label ι → Prop
  | .broken i part => ∀ job, s.call i = .writing job sock → part = []
  | _ => True

variable {fromSlice : List UInt8 → Option (RawBehaviorUpdate × ℕ)} {c : BehaviorCommand}
  {p q seen : List UInt8} {d : Delivery} {ds : List Delivery} {s t : State ι} {sock : Socket}
  {job : Job}

theorem controlLines_append (h : AtLineStart newline p) (q : List UInt8) :
    controlLines (p ++ q) = controlLines p ++ controlLines q := by
  have hrest : (splitLines 0x0a p).2 = [] := splitLines_atLineStart h
  rw [controlLines, splitLines_append, hrest, List.nil_append, List.map_append,
    List.filter_append]
  rfl

/-- Without a line feed there is no line more. -/
theorem controlLines_part (hp : AtLineStart newline p) (hq : newline ∉ q) :
    controlLines (p ++ q) = controlLines p := by
  have hopen : splitLines 0x0a q = ([], q) := splitLines_of_notMem hq
  rw [controlLines_append hp, controlLines, controlLines, hopen]
  exact List.append_nil _

theorem cr_notMem_body (command : BehaviorCommand) : (0x0d : UInt8) ∉ body command :=
  fun h => absurd (mem_body h).1 (by decide)

/-- The line of a valid behavior fits, and its bytes are taken as they were sent. -/
theorem controlLines_payload (h : c.Valid) : controlLines (payload c) = [body c] := by
  have hsplit : splitLines 0x0a (payload c) = ([body c], []) := by
    rw [payload_eq]
    exact splitLines_line (newline_notMem_body c)
  have hkept : withoutCr (body c) = body c := by
    refine List.filter_eq_self.mpr fun b hb => ?_
    refine decide_eq_true ?_
    rintro rfl
    exact cr_notMem_body c hb
  have hfits : (body c).length ≤ frameCapacity := by
    have hlen := length_print_payload h
    rw [body, encodeAscii, List.length_map, frameCapacity]
    omega
  rw [controlLines, hsplit, List.map_singleton, hkept,
    List.filter_cons_of_pos (by simpa using hfits), List.filter_nil]

/-- The lines of behaviors make their updates. -/
theorem updatesIn_lines (hslice : DeserializesFlat fromSlice)
    (hvalid : ∀ d ∈ ds, d.command.Valid) :
    updatesIn fromSlice (ds.flatMap Delivery.lines) =
      ds.pmap (fun d h => updateOf d.command h) hvalid := by
  induction ds with
  | nil => rfl
  | cons d ds ih =>
    obtain ⟨hd, hds⟩ := List.forall_mem_cons.mp hvalid
    have hparse : (parse fromSlice (body d.command)).toOption = some (updateOf d.command hd) := by
      rw [body, parse_frame hslice hd]
      rfl
    rw [List.flatMap_cons, Delivery.lines, controlLines_payload hd, updatesIn, List.filterMap_append,
      List.pmap_cons]
    simp only [List.filterMap_cons, List.filterMap_nil, hparse, List.singleton_append]
    exact congrArg _ (ih hds)

/-- An empty line has no update. -/
theorem updatesIn_nonempty (frames : List (List UInt8)) :
    updatesIn fromSlice (frames.filter (· ≠ [])) = updatesIn fromSlice frames := by
  rw [updatesIn, List.filterMap_filter]
  refine List.filterMap_congr fun frame _ => ?_
  by_cases hframe : frame = []
  · subst hframe
    rfl
  · rw [if_pos (by simpa using hframe)]

/-- Behaviors of one socket stand on the wire one after another. -/
def Ordered (ds : List Delivery) : Prop :=
  ds.Pairwise fun d e => d.sock = e.sock → d.upTo <+: e.before

/-- The lines of some behaviors in a row are among the lines of what was seen, in order. -/
theorem lines_sublist (hsock : ∀ d ∈ ds, d.sock = sock) (hordered : Ordered ds)
    (hstart : ∀ d ∈ ds, AtLineStart newline d.before) (hseen : ∀ d ∈ ds, d.upTo <+: seen) :
    (ds.flatMap Delivery.lines).Sublist (controlLines seen) := by
  induction ds using List.reverseRecOn generalizing seen with
  | nil => exact List.nil_sublist _
  | append_singleton ds d ih =>
    obtain ⟨hbefore, -, hlast⟩ := List.pairwise_append.mp hordered
    obtain ⟨hsocks, hsock'⟩ := List.forall_mem_append.mp hsock
    obtain ⟨hstarts, hstart'⟩ := List.forall_mem_append.mp hstart
    obtain ⟨rest, hrest⟩ := (List.forall_mem_append.mp hseen).2 d (List.mem_singleton_self d)
    have hd : AtLineStart newline d.before := hstart' d (List.mem_singleton_self d)
    have hend : AtLineStart newline (d.before ++ payload d.command) :=
      payload_atLineStart (.send d.command 0) d.before
    have hsublist := ih hsocks hbefore hstarts fun e he =>
      hlast e he d (List.mem_singleton_self d)
        ((hsocks e he).trans (hsock' d (List.mem_singleton_self d)).symm)
    rw [List.flatMap_append, List.flatMap_singleton, ← hrest, Delivery.upTo,
      controlLines_append hend, controlLines_append hd]
    exact (hsublist.append (List.Sublist.refl _)).trans (List.sublist_append_left _ _)

/-- What the steps keep of the behaviors that were sent. -/
structure Sent (s : State ι) : Prop extends Accounted s where
  starts : ∀ d ∈ s.delivered, AtLineStart newline d.before
  ordered : Ordered s.delivered

theorem sent_initial (onTouch : Bool) : Sent (initial ι onTouch) where
  toAccounted := accounted_initial onTouch
  starts := by simp [initial]
  ordered := .nil

/-- The lines of a socket on which nothing broke off are those of the behaviors. -/
structure Clean (sock : Socket) (s : State ι) : Prop extends Accounted s where
  start : AtLineStart newline (s.wire sock)
  lines : ∀ seen, seen <+: s.wire sock →
    (controlLines seen).filter (· ≠ []) = (s.arrived sock seen).flatMap Delivery.lines

theorem clean_initial (sock : Socket) (onTouch : Bool) : Clean sock (initial ι onTouch) where
  toAccounted := accounted_initial onTouch
  start := atLineStart_nil newline
  lines seen hseen := by
    obtain rfl := List.prefix_nil.mp hseen
    rfl

/-- Whatever is written is one line. -/
theorem payload_line (job : Job) : ∃ b, newline ∉ b ∧ job.payload = b ++ [newline] := by
  cases job with
  | send command left => exact ⟨body command, newline_notMem_body command, payload_eq command⟩
  | keepalive => exact ⟨[], List.not_mem_nil, rfl⟩

theorem payload_pos (job : Job) : 0 < job.payload.length := by
  obtain ⟨b, -, hb⟩ := payload_line job
  rw [hb, List.length_append]
  exact Nat.succ_pos _

/-- No line of a behavior is empty. -/
theorem lines_nonempty (job : Job) (sock : Socket) (before : List UInt8) :
    (controlLines job.payload).filter (· ≠ []) =
      (job.deliveries sock before).flatMap Delivery.lines := by
  cases job with
  | keepalive => rfl
  | send command left =>
    rw [Job.deliveries, List.flatMap_singleton, Delivery.lines, Job.payload]
    refine List.filter_eq_self.mpr fun line hline => decide_eq_true ?_
    have hsplit : splitLines 0x0a (payload command) = ([body command], []) := by
      rw [payload_eq]
      exact splitLines_line (newline_notMem_body command)
    rw [controlLines, hsplit, List.map_singleton] at hline
    obtain rfl := List.mem_singleton.mp (List.mem_of_mem_filter hline)
    have hbrace : (123 : UInt8) ∈ withoutCr (body command) :=
      List.mem_filter.mpr ⟨List.mem_cons_self, by decide⟩
    exact List.ne_nil_of_mem hbrace

/-- What has arrived when everything that was on the wire is seen, and more. -/
theorem arrived_deliver (hrecorded : ∀ d ∈ s.delivered, d.upTo <+: s.wire d.sock)
    (hseen : s.wire sock <+: seen) (ht : t.delivered = s.delivered ++ ds) :
    t.arrived sock seen = s.arrived sock (s.wire sock) ++
      ds.filter fun d => d.sock = sock ∧ d.upTo.length ≤ seen.length := by
  rw [State.arrived, State.arrived, ht, List.filter_append]
  refine congrArg (· ++ _) (List.filter_congr fun d hd => ?_)
  have hlen := (hrecorded d hd).length_le
  have hmore := hseen.length_le
  by_cases hsock : d.sock = sock
  · rw [hsock] at hlen
    simp only [hsock, true_and, decide_eq_decide]
    omega
  · simp only [hsock, false_and]

/-- What is yet to be written has not arrived. -/
theorem arrived_before (hseen : seen <+: s.wire sock) (ht : t.delivered = s.delivered ++ ds)
    (hds : ∀ d ∈ ds, d.sock = sock → (s.wire sock).length < d.upTo.length) :
    t.arrived sock seen = s.arrived sock seen := by
  have hnone : ds.filter (fun d => d.sock = sock ∧ d.upTo.length ≤ seen.length) = [] := by
    refine List.filter_eq_nil_iff.mpr fun d hd => ?_
    rw [decide_eq_true_eq]
    rintro ⟨hsock, hle⟩
    have hlong := hds d hd hsock
    have hlen := hseen.length_le
    omega
  rw [State.arrived, State.arrived, ht, List.filter_append, hnone, List.append_nil]

/-- What goes out elsewhere does not matter. -/
theorem clean_congr (hs : Clean sock s) (ht : Accounted t) (hwire : t.wire sock = s.wire sock)
    (hdelivered : t.delivered = s.delivered ++ ds) (hds : ∀ d ∈ ds, d.sock ≠ sock) :
    Clean sock t := by
  refine ⟨ht, hwire ▸ hs.start, fun seen hseen => ?_⟩
  rw [hwire] at hseen
  rw [hs.lines seen hseen, arrived_before hseen hdelivered]
  exact fun d hd hsock => absurd hsock (hds d hd)

/-- Once everything is seen, every behavior sent has arrived. -/
theorem arrived_all (hs : Accounted s) :
    s.arrived sock (s.wire sock) = s.delivered.filter (·.sock = sock) := by
  refine List.filter_congr fun d hd => decide_eq_decide.mpr (and_iff_left_of_imp ?_)
  rintro rfl
  exact (hs.recorded d hd).length_le

/-- The arrived behaviors are on lines of their own among those seen. -/
theorem arrived_sublist (hs : Sent s) (hseen : seen <+: s.wire sock) :
    ((s.arrived sock seen).flatMap Delivery.lines).Sublist (controlLines seen) := by
  have harrived : ∀ d ∈ s.arrived sock seen, d ∈ s.delivered ∧ d.sock = sock ∧
      d.upTo.length ≤ seen.length := by
    intro d hd
    obtain ⟨hmem, hd⟩ := List.mem_filter.mp hd
    obtain ⟨hsock, hle⟩ := of_decide_eq_true hd
    exact ⟨hmem, hsock, hle⟩
  refine lines_sublist (fun d hd => (harrived d hd).2.1) ?_ ?_ ?_
  · exact hs.ordered.sublist List.filter_sublist
  · exact fun d hd => hs.starts d (harrived d hd).1
  · intro d hd
    obtain ⟨hmem, rfl, hle⟩ := harrived d hd
    exact List.prefix_of_prefix_length_le (hs.recorded d hmem) hseen hle

section Steps

variable [DecidableEq ι] {connectRetries : ℕ} {a : Label ι} {i : ι}
  {run : List (Label ι × State ι)}

theorem sent_step (h : Step connectRetries s a t) (hs : Sent s) (hfree : Undisturbed s a) :
    Sent t := by
  have hwhole : ∀ d ∈ t.delivered, Whole t d :=
    (step_whole h hs.toAccounted ((forall_whole_iff hs.toAccounted).mpr hs.starts)).mpr hfree
  refine ⟨step_accounted h hs.toAccounted, fun d hd => (hwhole d hd).1, ?_⟩
  by_cases hwritten : ∃ i, a = .written i
  · obtain ⟨i, rfl⟩ := hwritten
    cases h with
    | @written _ job sock hi hopen =>
      refine List.pairwise_append.mpr ⟨hs.ordered, ?_, ?_⟩
      · cases job with
        | send command left => exact List.pairwise_singleton _ _
        | keepalive => exact .nil
      · intro d hd e he hsame
        cases job with
        | send command left =>
          obtain rfl := List.mem_singleton.mp he
          have hsock : d.sock = sock := hsame
          have hrecorded := hs.recorded d hd
          rwa [hsock] at hrecorded
        | keepalive => cases he
  · have hdelivered : t.delivered = s.delivered := by cases h <;> simp_all
    rw [hdelivered]
    exact hs.ordered

theorem clean_written (hi : s.call i = .writing job sock) (hopen : sock ∉ s.shut)
    (hs : Clean sock s) :
    Clean sock (((s.deliver job sock).write sock job.payload).setCall i .idle) := by
  have hwire : (((s.deliver job sock).write sock job.payload).setCall i .idle).wire sock =
      s.wire sock ++ job.payload := Function.update_self ..
  refine ⟨written_accounted hi hopen hs.toAccounted, ?_, fun seen hseen => ?_⟩
  · rw [hwire]
    exact payload_atLineStart job _
  · rw [hwire] at hseen
    have hnew : ∀ d ∈ job.deliveries sock (s.wire sock), d.sock = sock ∧
        d.upTo.length = (s.wire sock).length + job.payload.length := by
      intro d hd
      cases job with
      | keepalive => cases hd
      | send command left =>
        obtain rfl := List.mem_singleton.mp hd
        exact ⟨rfl, List.length_append⟩
    have hdelivered : (((s.deliver job sock).write sock job.payload).setCall i .idle).delivered =
        s.delivered ++ job.deliveries sock (s.wire sock) := rfl
    have hpos := payload_pos job
    rcases List.prefix_or_prefix_of_prefix hseen (List.prefix_append _ _) with hold | ⟨part, rfl⟩
    · rw [hs.lines seen hold, arrived_before hold hdelivered]
      intro d hd _
      have hlen := (hnew d hd).2
      omega
    · have hpart : part <+: job.payload := (List.prefix_append_right_inj _).mp hseen
      obtain ⟨b, hb, hline⟩ := payload_line job
      rw [arrived_deliver hs.recorded (List.prefix_append _ _) hdelivered, List.flatMap_append,
        ← hs.lines _ List.prefix_rfl]
      rw [hline, List.prefix_concat_iff, ← hline] at hpart
      rcases hpart with rfl | hpart
      · -- The whole line is there.
        have hall : (job.deliveries sock (s.wire sock)).filter (fun d => d.sock = sock ∧
            d.upTo.length ≤ (s.wire sock ++ job.payload).length) =
              job.deliveries sock (s.wire sock) := by
          refine List.filter_eq_self.mpr fun d hd => ?_
          obtain ⟨hsock, hlen⟩ := hnew d hd
          simp only [hsock, hlen, List.length_append, le_refl, and_self, decide_true]
        rw [hall, controlLines_append hs.start, List.filter_append,
          lines_nonempty job sock (s.wire sock)]
      · -- Only a part of it.
        have hopen : newline ∉ part := fun hmem => hb (hpart.subset hmem)
        have hshort : part.length < job.payload.length := by
          rw [hline, List.length_append]
          exact Nat.lt_succ_of_le hpart.length_le
        have hnone : (job.deliveries sock (s.wire sock)).filter (fun d => d.sock = sock ∧
            d.upTo.length ≤ (s.wire sock ++ part).length) = [] := by
          refine List.filter_eq_nil_iff.mpr fun d hd => ?_
          obtain ⟨-, hlen⟩ := hnew d hd
          simp only [hlen, List.length_append, decide_eq_true_eq, not_and, not_le]
          omega
        rw [hnone, controlLines_part hs.start hopen, List.flatMap_nil, List.append_nil]

theorem clean_step (h : Step connectRetries s a t) (hs : Clean sock s)
    (hfree : Unbroken sock s a) : Clean sock t := by
  have ht := step_accounted h hs.toAccounted
  by_cases hwrites : (∃ i, a = .written i) ∨ ∃ i part, a = .broken i part
  · rcases hwrites with ⟨i, rfl⟩ | ⟨i, part, rfl⟩
    · cases h with
      | @written _ job other hi hopen =>
        by_cases hsock : other = sock
        · subst hsock
          exact clean_written hi hopen hs
        · refine clean_congr hs ht (Function.update_of_ne (Ne.symm hsock) _ _) rfl ?_
          intro d hd
          cases job with
          | keepalive => cases hd
          | send command left =>
            obtain rfl := List.mem_singleton.mp hd
            exact hsock
    · cases h with
      | @broken _ job other _ hi hpart hopen =>
        have hdelivered : ((s.write other part).setCall i (.dropping job other part)).delivered =
            s.delivered ++ [] := (List.append_nil _).symm
        refine clean_congr hs ht ?_ hdelivered nofun
        by_cases hsock : other = sock
        · subst hsock
          obtain rfl := hfree job hi
          exact (Function.update_self ..).trans (List.append_nil _)
        · exact Function.update_of_ne (Ne.symm hsock) _ _
  · obtain ⟨hwritten, hbroken⟩ := not_or.mp hwrites
    obtain ⟨hwire, hdelivered⟩ := step_wire h (not_exists.mp hwritten) (by simpa using hbroken)
    have hsame : t.delivered = s.delivered ++ [] := by rw [hdelivered, List.append_nil]
    exact clean_congr hs ht (congrFun hwire sock) hsame nofun

theorem sent_run {onTouch : Bool} (h : Trace (Step connectRetries) (initial ι onTouch) run s)
    (hfree : Along Undisturbed (initial ι onTouch) run) : Sent s := by
  refine h.of_along ?_ (sent_initial onTouch) hfree
  intro s a t hs hc hstep
  exact sent_step hstep hs hc

theorem clean_run {onTouch : Bool} (h : Trace (Step connectRetries) (initial ι onTouch) run s)
    (hfree : Along (Unbroken sock) (initial ι onTouch) run) : Clean sock s := by
  refine h.of_along ?_ (clean_initial sock onTouch) hfree
  intro s a t hs hc hstep
  exact clean_step hstep hs hc

/-- From the threads of the host to the device, however its bytes are cut into reads: as long as no
behavior is written behind a broken line, the device takes every behavior of which the line has
arrived, in the order they were sent and each as the update that it parses its line as; and it takes
nothing else from a socket on which no write broke off, so that the last of them is what it shows
next. -/
theorem downlink_end_to_end (hslice : DeserializesFlat fromSlice) {onTouch : Bool}
    (h : Trace (Step connectRetries) (initial ι onTouch) run s)
    (hfree : Along Undisturbed (initial ι onTouch) run)
    (hvalid : ∀ d ∈ s.delivered, d.command.Valid) (hseen : seen <+: s.wire sock)
    (frame : Vector UInt8 frameCapacity) (pending : Option BehaviorUpdate)
    {chunks : List (List UInt8)} (hchunks : Segments readBufLen seen chunks) :
    let r := ((ControlReader.start frame pending).readControlStream fromSlice
      (chunks.map .bytes)).1
    let updates := (s.arrived sock seen).pmap (fun d h => updateOf d.command h)
      fun d hd => hvalid d (List.mem_of_mem_filter hd)
    updates.Sublist (updatesIn fromSlice r.handled) ∧
      (Along (Unbroken sock) (initial ι onTouch) run →
        updatesIn fromSlice r.handled = updates ∧
          r.pendingBehavior = updates.getLast?.or pending) ∧
      (seen = s.wire sock → s.arrived sock seen = s.delivered.filter (·.sock = sock)) := by
  intro r updates
  have hs := sent_run h hfree
  have hr : r = (ControlReader.start frame pending).readBytes fromSlice seen := by
    have hread : (ControlReader.start frame pending).readControlStream fromSlice
        (chunks.map .bytes ++ []) = _ :=
      readControlStream_chunks hchunks.ne_nil (.start frame pending) []
    rw [List.append_nil, hchunks.flatten_eq] at hread
    exact congrArg Prod.fst hread
  have hframed := buffered_readBytes fromSlice frame pending seen
  have hupdates : updatesIn fromSlice ((s.arrived sock seen).flatMap Delivery.lines) = updates :=
    updatesIn_lines hslice _
  rw [hr, hframed.handled, hframed.pending]
  refine ⟨?_, fun hunbroken => ?_, ?_⟩
  · rw [← hupdates]
    exact (arrived_sublist hs hseen).filterMap _
  · have hclean := (clean_run h hunbroken).lines seen hseen
    have hall : updatesIn fromSlice (controlLines seen) = updates := by
      rw [← updatesIn_nonempty, hclean, hupdates]
    rw [hall]
    exact ⟨rfl, rfl⟩
  · rintro rfl
    exact arrived_all hs.toAccounted

end Steps

def playCommand : BehaviorCommand := ⟨.happy, .play, none, false, 3000⟩

theorem valid_idle : idleCommand.Valid := ⟨rfl, rfl, by decide, nofun⟩

theorem valid_play : playCommand.Valid := ⟨rfl, rfl, by decide, nofun⟩

theorem two_threads_valid {t : State Bool}
    (h : t.delivered = [⟨idleCommand, 0, []⟩, ⟨playCommand, 0, payload idleCommand ++ [newline]⟩]) :
    ∀ d ∈ t.delivered, d.command.Valid := by
  rw [h]
  intro d hd
  rcases List.mem_cons.mp hd with rfl | hd
  · exact valid_idle
  · obtain rfl := List.mem_singleton.mp hd
    exact valid_play

/-- One thread sends a behavior, another one a keepalive and then a behavior. -/
theorem two_threads_run : ∃ (run : List (Label Bool × State Bool)) (t : State Bool),
    Trace (Step 1) (initial Bool false) run t ∧
      t.delivered = [⟨idleCommand, 0, []⟩, ⟨playCommand, 0, payload idleCommand ++ [newline]⟩] ∧
      t.wire 0 = payload idleCommand ++ [newline] ++ payload playCommand ∧
      Along Undisturbed (initial Bool false) run ∧
      Along (Unbroken 0) (initial Bool false) run := by
  refine ⟨_, _, .cons (.send (i := true) idleCommand rfl) (.cons (.ensureDead (i := true) rfl rfl)
    (.cons (.connect (i := true) rfl) (.cons (.install (i := true) rfl rfl rfl)
      (.cons (.keepalive (i := false) rfl) (.cons (.peekLive (i := false) rfl rfl)
        (.cons (.written (i := true) rfl (by decide)) (.cons (.written (i := false) rfl (by decide))
          (.cons (.send (i := false) playCommand rfl) (.cons (.ensureLive (i := false) rfl rfl)
            (.cons (.written (i := false) rfl (by decide)) (.nil _))))))))))), rfl, rfl, ?_, ?_⟩
  · simp [Along, Undisturbed, State.Behind, Call.broken]
  · simp [Along, Unbroken]

/-- The bytes of both behaviors, with the keepalive between them in the second read. -/
def twoThreadsReads : List (List UInt8) :=
  [(payload idleCommand).take 60,
    (payload idleCommand).drop 60 ++ newline :: (payload playCommand).take 20,
    ((payload playCommand).drop 20).take 50, (payload playCommand).drop 70]

theorem downlink_end_to_end_two_threads :
    updatesIn fromSliceFlat ((ControlReader.start (.replicate _ 0) none).readControlStream
      fromSliceFlat (twoThreadsReads.map .bytes)).1.handled =
      [⟨.calm, .idle, none, false, 3000⟩, ⟨.happy, .play, none, false, 3000⟩] := by
  obtain ⟨run, t, htrace, hdelivered, hwire, hfree, hunbroken⟩ := two_threads_run
  have hvalid := two_threads_valid hdelivered
  have hchunks : Segments readBufLen (payload idleCommand ++ [newline] ++ payload playCommand)
      twoThreadsReads :=
    ⟨by decide +kernel, by decide +kernel, by decide +kernel⟩
  have hseen : payload idleCommand ++ [newline] ++ payload playCommand <+: t.wire 0 :=
    hwire ▸ List.prefix_rfl
  obtain ⟨-, hexact, hall⟩ := downlink_end_to_end deserializesFlat_fromSliceFlat htrace hfree hvalid
    hseen (.replicate _ 0) none hchunks
  have harrived : t.arrived 0 (payload idleCommand ++ [newline] ++ payload playCommand) =
      [⟨idleCommand, 0, []⟩, ⟨playCommand, 0, payload idleCommand ++ [newline]⟩] := by
    rw [hall hwire.symm, hdelivered]
    exact List.filter_eq_self.mpr (by simp)
  refine (hexact hunbroken).1.trans ?_
  simp only [harrived]
  rfl

end Hologotchi.Connection
