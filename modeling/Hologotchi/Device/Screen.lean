import Hologotchi.Display.Drawing
import Hologotchi.Firmware.Soundness
import Hologotchi.Firmware.Stream
import Hologotchi.Render.Frames

/-! From the bytes of a connection to the panel: the control reader, the render task and the display
driver of the firmware (`device/src/bin/main.rs`) together. -/
namespace Hologotchi.Device

open Display Firmware Library Recent Render Rust Sprite Touch

/-- What is drawn with: the tables of `shiro_sprites.rs`, and the pixels of `embedded_graphics` for
a bubble and for the border of an alert. -/
structure Art where
  palette : Palette
  sprite : PoseId → Sprite
  bubble : HeaplessString textCapacity → Bool → List Pixel
  alertBorder : UInt32 → List Pixel

/-- `Scene::draw`, from what the scene shows at a frame. -/
def Art.draw (art : Art) (checks : Bool) (frame : UInt32) (shown : Shown) (fb : Framebuffer) :
    Except Panic Framebuffer := do
  let fb := fb.clear rgb565Black
  let pose ← frameFor checks shown.animation frame shown.animFrame shown.alert
  let fb ← blitSprite checks art.palette (art.sprite pose.pose) pose.x pose.y fb
  let fb := match shown.text with
    | some text => fb.drawIter (art.bubble text shown.alert)
    | none => fb
  .ok (if pose.alertBorder then fb.drawIter (art.alertBorder shown.animFrame) else fb)

/-- What happens on the device. -/
inductive Event
  | connected
  /-- What a read of the connection gives. -/
  | received (bytes : List UInt8)
  /-- The local acknowledgement of a touch is queued. -/
  | acknowledged (gesture : Gesture)
  /-- A pass of the render loop, whose flush may fail after so many signals. -/
  | pass (failure : Option ℕ)

/-- A flush does not fail behind the command that its pixel data follows. -/
def Event.Early : Event → Prop
  | .pass (some sent) => sent ≤ address.length
  | _ => True

instance : DecidablePred Event.Early
  | .pass (some sent) => inferInstanceAs (Decidable (sent ≤ address.length))
  | .pass none | .connected | .received _ | .acknowledged _ => inferInstanceAs (Decidable True)

structure Board where
  reader : ControlReader
  localAckCounter : UInt8
  scene : Scene
  framebuffer : Framebuffer
  chip : Chip

namespace Board

section Running

variable [R : SpiRuntime]

/-- After `display.init`. -/
def start (frame : Vector UInt8 frameCapacity) : Board where
  reader := .start frame none
  localAckCounter := 0
  scene := .new
  framebuffer := .blank
  chip := Chip.chipInit.run (init .cube)

variable (art : Art) (checks : Bool) (fromSlice : List UInt8 → Option (RawBehaviorUpdate × ℕ))

def step (b : Board) : Event → Except Panic Board
  | .connected => .ok { b with reader := .start b.reader.frame b.reader.pendingBehavior }
  | .received bytes => .ok { b with reader := b.reader.readBytes fromSlice bytes }
  | .acknowledged gesture => .ok { b with
      reader := { b.reader with pendingBehavior := some (localAck gesture b.localAckCounter) }
      localAckCounter := b.localAckCounter + 1 }
  | .pass failure => do
    let scene := drawing frameMs b.scene b.reader.pendingBehavior
    let fb ← art.draw checks scene.frame scene.drawn b.framebuffer
    let flush : Flush := failure.elim (.done fb) (.failed fb)
    .ok { b with
      reader := { b.reader with pendingBehavior := none }
      scene := scene.tick
      framebuffer := fb
      chip := b.chip.run flush.signals }

/-- The board after some events. -/
def run (b : Board) (events : List Event) : Except Panic Board :=
  events.foldlM (step art checks fromSlice) b

end Running

end Board

/-- What the events so far ask the device to show. -/
structure History where
  /-- The bytes of the connection. -/
  seen : List UInt8 := []
  /-- The updates since the last pass. -/
  queued : List BehaviorUpdate := []
  acks : ℕ := 0
  /-- What each pass took. -/
  passes : List (Option BehaviorUpdate) := []
  /-- The last pass whose flush did not fail. -/
  flushed : Option ℕ := none

namespace History

variable (fromSlice : List UInt8 → Option (RawBehaviorUpdate × ℕ))

/-- The updates that a connection has sent whole lines of. -/
def updates (seen : List UInt8) : List BehaviorUpdate := updatesIn fromSlice (controlLines seen)

def step (h : History) : Event → History
  | .connected => { h with seen := [] }
  | .received bytes => { h with
      seen := h.seen ++ bytes
      queued := h.queued ++
        (updates fromSlice (h.seen ++ bytes)).drop (updates fromSlice h.seen).length }
  | .acknowledged gesture => { h with
      queued := h.queued ++ [localAck gesture (UInt8.ofNat h.acks)]
      acks := h.acks + 1 }
  | .pass failure => { h with
      queued := []
      passes := h.passes ++ [h.queued.getLast?]
      flushed := failure.elim (some h.passes.length) fun _ => h.flushed }

def of (events : List Event) : History := events.foldl (step fromSlice) {}

theorem of_concat (events : List Event) (e : Event) :
    of fromSlice (events ++ [e]) = (of fromSlice events).step fromSlice e :=
  List.foldl_concat ..

end History

/-- What is shown in the last one of some passes: the last update, for its time, or the local idle
loop. -/
def shownAfter (passes : List (Option BehaviorUpdate)) (frame : UInt32) : Shown :=
  match recent passes with
  | some (update, n) =>
    if n < shownCycles frameMs update then
      ⟨update.animation, UInt32.ofNat n, update.text, update.alert⟩
    else Scene.localShown ⟨frame, none⟩
  | none => Scene.localShown ⟨frame, none⟩

/-- The picture of the `i`-th pass. -/
def picture (art : Art) (checks : Bool) (passes : List (Option BehaviorUpdate)) (i : ℕ) :
    Except Panic Framebuffer :=
  art.draw checks (UInt32.ofNat i) (shownAfter (passes.take (i + 1)) (UInt32.ofNat i))
    .blank

variable {art : Art} {checks : Bool} {fromSlice : List UInt8 → Option (RawBehaviorUpdate × ℕ)}
  {h : History} {b : Board} {e : Event} {events : List Event}

/-- Only what is pending depends on what was. -/
theorem readByte_pending (fromSlice : List UInt8 → Option (RawBehaviorUpdate × ℕ))
    (r : ControlReader) (byte : UInt8) :
    ∃ new, (r.readByte fromSlice byte).handled = r.handled ++ new ∧
      ∀ p, ({ r with pendingBehavior := p } : ControlReader).readByte fromSlice byte =
        { r.readByte fromSlice byte with
          pendingBehavior := (updatesIn fromSlice new).getLast?.or p } := by
  have hsame : ∀ r' : ControlReader, r'.handled = r.handled →
      r'.handled = r.handled ++ ([] : List (List UInt8)) := fun r' h => by rw [h, List.append_nil]
  simp only [ControlReader.readByte]
  split_ifs with hcr hlf hdropping hdropping' hroom
  · exact ⟨[], hsame _ rfl, fun p => rfl⟩
  · exact ⟨[], hsame _ rfl, fun p => rfl⟩
  · refine ⟨[r.frame.toList.take r.frameLen], rfl, fun p => ?_⟩
    simp only [ControlReader.handleFrame, updatesIn, List.filterMap_cons, List.filterMap_nil]
    cases parse fromSlice (r.frame.toList.take r.frameLen) <;> rfl
  · exact ⟨[], hsame _ rfl, fun p => rfl⟩
  · exact ⟨[], hsame _ rfl, fun p => rfl⟩
  · exact ⟨[], hsame _ rfl, fun p => rfl⟩

theorem readBytes_pending (fromSlice : List UInt8 → Option (RawBehaviorUpdate × ℕ))
    (r : ControlReader) (bytes : List UInt8) :
    ∃ new, (r.readBytes fromSlice bytes).handled = r.handled ++ new ∧
      ∀ p, ({ r with pendingBehavior := p } : ControlReader).readBytes fromSlice bytes =
        { r.readBytes fromSlice bytes with
          pendingBehavior := (updatesIn fromSlice new).getLast?.or p } := by
  induction bytes using List.reverseRecOn with
  | nil => exact ⟨[], (List.append_nil _).symm, fun p => rfl⟩
  | append_singleton bytes byte ih =>
    obtain ⟨new, hnew, hpending⟩ := ih
    obtain ⟨newer, hnewer, hlast⟩ := readByte_pending fromSlice (r.readBytes fromSlice bytes) byte
    refine ⟨new ++ newer, ?_, fun p => ?_⟩
    · rw [ControlReader.readBytes, List.foldl_append, List.foldl_cons, List.foldl_nil]
      exact hnewer.trans (by rw [hnew, List.append_assoc])
    · have hboth : (updatesIn fromSlice newer).getLast?.or
          ((updatesIn fromSlice new).getLast?.or p) =
            (updatesIn fromSlice (new ++ newer)).getLast?.or p := by
        rw [updatesIn, updatesIn, updatesIn, List.filterMap_append, List.getLast?_append,
          Option.or_assoc]
      rw [ControlReader.readBytes, ControlReader.readBytes, List.foldl_append, List.foldl_append,
        List.foldl_cons, List.foldl_cons, List.foldl_nil, List.foldl_nil, ← hboth]
      exact (congrArg (ControlReader.readByte fromSlice · byte) (hpending p)).trans (hlast _)

/-- What a connection has sent, and what is pending. -/
def ReaderAt (fromSlice : List UInt8 → Option (RawBehaviorUpdate × ℕ)) (seen : List UInt8)
    (pending : Option BehaviorUpdate) (r : ControlReader) : Prop :=
  ∃ frame, r = { (ControlReader.start frame none).readBytes fromSlice seen with
    pendingBehavior := pending }

theorem ReaderAt.readBytes {seen : List UInt8} {queued : List BehaviorUpdate} {r : ControlReader}
    (h : ReaderAt fromSlice seen queued.getLast? r) (bytes : List UInt8) :
    ReaderAt fromSlice (seen ++ bytes)
      (queued ++ (History.updates fromSlice (seen ++ bytes)).drop
        (History.updates fromSlice seen).length).getLast? (r.readBytes fromSlice bytes) := by
  obtain ⟨frame, rfl⟩ := h
  obtain ⟨new, hnew, hpending⟩ := readBytes_pending fromSlice
    ((ControlReader.start frame none).readBytes fromSlice seen) bytes
  have hbefore := (buffered_readBytes fromSlice frame none seen).handled
  have hafter := (buffered_readBytes fromSlice frame none (seen ++ bytes)).handled
  have hboth : (ControlReader.start frame none).readBytes fromSlice (seen ++ bytes) =
      ((ControlReader.start frame none).readBytes fromSlice seen).readBytes fromSlice bytes :=
    List.foldl_append
  have hdrop : (History.updates fromSlice (seen ++ bytes)).drop
      (History.updates fromSlice seen).length = updatesIn fromSlice new := by
    rw [History.updates, History.updates, ← hafter, hboth, hnew, hbefore, updatesIn, updatesIn,
      List.filterMap_append, List.drop_left]
    rfl
  refine ⟨frame, ?_⟩
  rw [hpending, hdrop, List.getLast?_append, hboth]

/-- The durations that the parser gives. -/
theorem inRange_parse {frame : List UInt8} {update : BehaviorUpdate}
    (h : parse fromSlice frame = .ok update) : Render.InRange update := by
  obtain ⟨raw, used, -, hsound⟩ := parse_ok h
  exact hsound.duration

theorem inRange_updates {seen : List UInt8} {update : BehaviorUpdate}
    (h : update ∈ History.updates fromSlice seen) : Render.InRange update := by
  obtain ⟨frame, -, hparse⟩ := List.mem_filterMap.mp h
  cases hresult : parse fromSlice frame with
  | error err => rw [hresult] at hparse; contradiction
  | ok result =>
    rw [hresult] at hparse
    obtain rfl := Option.some.inj hparse
    exact inRange_parse hresult

theorem inRange_localAck (gesture : Gesture) (index : UInt8) :
    Render.InRange (localAck gesture index) := by
  have hin : Firmware.minDurationMs ≤ localAckDurationMs ∧
      localAckDurationMs ≤ Firmware.maxDurationMs := by decide
  exact hin

theorem clear_eq (fb fb' : Framebuffer) (color : Rgb565) : fb.clear color = fb'.clear color := by
  simp only [Framebuffer.clear]
  split
  · apply Vector.ext
    intro i hi
    rw [Vector.getElem_map, Vector.getElem_map]
  · rfl

/-- What was drawn before does not matter. -/
theorem draw_eq (frame : UInt32) (shown : Shown) (fb fb' : Framebuffer) :
    art.draw checks frame shown fb = art.draw checks frame shown fb' := by
  simp only [Art.draw, clear_eq fb fb']

/-- Near its place a sprite overflows nothing. -/
theorem fitsAt_of_near {f : SpriteFrame} (h : f.Near) (sprite : Sprite) :
    sprite.FitsAt f.x f.y := by
  obtain ⟨⟨hleft, hright⟩, htop, hbottom⟩ := h
  have hx := sprite.x.le_toInt
  have hx' := sprite.x.toInt_lt
  have hy := sprite.y.le_toInt
  have hy' := sprite.y.toInt_lt
  have hwidth := sprite.width.toNat_lt
  have hheight := sprite.height.toNat_lt
  refine ⟨⟨by omega, by omega⟩, ⟨by omega, by omega⟩, ⟨?_, ?_, ?_, ?_⟩⟩
  all_goals
    simp only [SpritePixels.new]
    omega

/-- What has a pose near its place can be drawn. -/
theorem draw_ok {frame : UInt32} {shown : Shown} {pose : SpriteFrame}
    (hpose : frameFor checks shown.animation frame shown.animFrame shown.alert = .ok pose)
    (hnear : pose.Near) (fb : Framebuffer) : ∃ fb', art.draw checks frame shown fb = .ok fb' := by
  obtain ⟨blitted, hblit⟩ := blitSprite_ok checks art.palette
    (fitsAt_of_near hnear (art.sprite pose.pose)) (fb.clear rgb565Black)
  rw [Art.draw, hpose]
  change ∃ fb', (blitSprite checks art.palette (art.sprite pose.pose) pose.x pose.y
    (fb.clear rgb565Black) >>= _) = .ok fb'
  rw [hblit]
  exact ⟨_, rfl⟩

theorem drawn_eq_shownAfter {s : Scene} {passes : List (Option BehaviorUpdate)}
    (h : Shows frameMs passes s) : s.drawn = shownAfter passes s.frame := by
  obtain ⟨frame, active⟩ := s
  cases active with
  | some active =>
    obtain ⟨hrecent, hsum, hleft⟩ := h
    have hlt : active.elapsed.toNat < shownCycles frameMs active.behavior := by
      rw [← hsum]
      omega
    have helapsed : UInt32.ofNat active.elapsed.toNat = active.elapsed.toUInt32 := by
      apply UInt32.toNat_inj.mp
      simp
    rw [shownAfter, hrecent]
    simp only [if_pos hlt, helapsed]
    rfl
  | none =>
    rw [shownAfter]
    cases hrecent : recent passes with
    | none => rfl
    | some last =>
      obtain ⟨update, n⟩ := last
      have hover := h update n hrecent
      simp only [if_neg (Nat.not_lt.mpr hover)]
      rfl

theorem picture_append (art : Art) (checks : Bool) (entry : Option BehaviorUpdate)
    {passes : List (Option BehaviorUpdate)} {i : ℕ} (hi : i < passes.length) :
    picture art checks (passes ++ [entry]) i = picture art checks passes i := by
  rw [picture, picture, List.take_append_of_le_length hi]

section Running

variable [R : SpiRuntime]

/-- The board does what the events so far ask for. -/
structure Tracks (art : Art) (checks : Bool)
    (fromSlice : List UInt8 → Option (RawBehaviorUpdate × ℕ)) (h : History) (b : Board) :
    Prop where
  reader : ReaderAt fromSlice h.seen h.queued.getLast? b.reader
  queued : ∀ update ∈ h.queued, Render.InRange update
  passes : ∀ update, some update ∈ h.passes → Render.InRange update
  acks : b.localAckCounter = UInt8.ofNat h.acks
  scene : b.scene = finalState (Scene.cycle frameMs) Scene.new h.passes
  shown : ∃ fb, Chip.Showing b.chip .cube fb ∧ match h.flushed with
    | none => fb = .blank
    | some i => i < h.passes.length ∧ picture art checks h.passes i = .ok fb

theorem tracks_start (frame : Vector UInt8 frameCapacity) :
    Tracks art checks fromSlice {} (Board.start frame) := by
  have hchip : (Board.start frame).chip = Chip.chipInit.run (init .cube) := by
    simp only [Board.start]
  refine ⟨⟨frame, rfl⟩, by simp, by simp, rfl, rfl, .blank, ?_, rfl⟩
  rw [hchip]
  exact Chip.showing_init .cube rfl rfl

theorem tracks_pass (h' : Tracks art checks fromSlice h b) {failure : Option ℕ}
    (hearly : (Event.pass failure).Early) (hroom : Room checks h.passes.length) :
    ∃ b', b.step art checks fromSlice (.pass failure) = .ok b' ∧
      Tracks art checks fromSlice (h.step fromSlice (.pass failure)) b' := by
  obtain ⟨frame, hreader⟩ := h'.reader
  obtain ⟨shown, hshowing, hpicture⟩ := h'.shown
  let entry := h.queued.getLast?
  let scene := drawing frameMs b.scene b.reader.pendingBehavior
  have hpending : b.reader.pendingBehavior = entry := by rw [hreader]
  have hentry : ∀ update ∈ entry, Render.InRange update := fun update hmem =>
    h'.queued update (List.mem_of_getLast? hmem)
  have hbefore : Shows frameMs (h.passes ++ [none]) b.scene := by
    rw [h'.scene]
    exact shows_run (by decide) h'.passes
  have hshows : Shows frameMs (h.passes ++ [entry]) scene := by
    rw [← hpending] at hentry ⊢
    exact shows_drawing (by decide) hentry hbefore
  have hframe : scene.frame = UInt32.ofNat h.passes.length := by
    rw [frame_drawing, h'.scene, frame_run]
  have hsmall : Room checks scene.frame.toNat := by
    intro hchecks
    have hlt := hroom hchecks
    rw [hframe, UInt32.toNat_ofNat']
    omega
  obtain ⟨pose, hpose, hnear⟩ := scene.spriteFrame_ok hsmall
  obtain ⟨fb, hfb⟩ := draw_ok hpose hnear b.framebuffer
  have hnew : picture art checks (h.passes ++ [entry]) h.passes.length = .ok fb := by
    have hall : (h.passes ++ [entry]).take (h.passes.length + 1) = h.passes ++ [entry] := by
      apply List.take_of_length_le
      rw [List.length_append, List.length_singleton]
    rw [picture, hall, ← hframe, ← drawn_eq_shownAfter hshows]
    exact (draw_eq _ _ _ _).trans hfb
  refine ⟨{ b with
      reader := { b.reader with pendingBehavior := none }
      scene := scene.tick
      framebuffer := fb
      chip := b.chip.run (failure.elim (Flush.done fb) (Flush.failed fb)).signals }, ?_, ?_⟩
  · rw [Board.step]
    change (art.draw checks scene.frame scene.drawn b.framebuffer >>= _) = _
    rw [hfb]
    rfl
  · refine ⟨⟨frame, ?_⟩, by simp [History.step], ?_, h'.acks, ?_, ?_⟩
    · rw [hreader]
      rfl
    · intro update hmem
      rcases List.mem_append.mp hmem with hold | hnew
      · exact h'.passes update hold
      · exact hentry update (List.mem_singleton.mp hnew).symm
    · change scene.tick = finalState (Scene.cycle frameMs) Scene.new (h.passes ++ [entry])
      rw [finalState_append, finalState_cons, finalState_nil, ← h'.scene, cycle_eq, ← hpending]
    · cases failure with
      | none =>
        refine ⟨fb, hshowing.done fb, ?_, hnew⟩
        simp [History.step]
      | some sent =>
        refine ⟨shown, hshowing.failed fb hearly, ?_⟩
        change match h.flushed with
          | none => shown = .blank
          | some i => i < (h.passes ++ [entry]).length ∧
              picture art checks (h.passes ++ [entry]) i = .ok shown
        cases hflushed : h.flushed with
        | none => simpa [hflushed] using hpicture
        | some i =>
          simp only [hflushed] at hpicture
          obtain ⟨hi, hsame⟩ := hpicture
          refine ⟨?_, (picture_append art checks entry hi).trans hsame⟩
          rw [List.length_append]
          omega

theorem tracks_step (h' : Tracks art checks fromSlice h b) {e : Event} (hearly : e.Early)
    (hroom : Room checks h.passes.length) :
    ∃ b', b.step art checks fromSlice e = .ok b' ∧
      Tracks art checks fromSlice (h.step fromSlice e) b' := by
  cases e with
  | connected =>
    refine ⟨_, rfl, { h' with reader := ?_ }⟩
    obtain ⟨frame, hreader⟩ := h'.reader
    refine ⟨b.reader.frame, ?_⟩
    rw [hreader]
    rfl
  | received bytes =>
    refine ⟨_, rfl, { h' with reader := h'.reader.readBytes bytes, queued := ?_ }⟩
    intro update hmem
    rcases List.mem_append.mp hmem with hold | hnew
    · exact h'.queued update hold
    · exact inRange_updates (List.mem_of_mem_drop hnew)
  | acknowledged gesture =>
    refine ⟨_, rfl, { h' with reader := ?_, queued := ?_, acks := ?_ }⟩
    · obtain ⟨frame, hreader⟩ := h'.reader
      refine ⟨frame, ?_⟩
      rw [hreader, h'.acks]
      simp [History.step]
    · intro update hmem
      rcases List.mem_append.mp hmem with hold | hnew
      · exact h'.queued update hold
      · obtain rfl := List.mem_singleton.mp hnew
        exact inRange_localAck _ _
    · rw [h'.acks]
      simp [History.step]
  | pass failure => exact tracks_pass h' hearly hroom

theorem tracks_run (art : Art) (checks : Bool)
    (fromSlice : List UInt8 → Option (RawBehaviorUpdate × ℕ)) (frame : Vector UInt8 frameCapacity)
    (events : List Event) (hearly : ∀ e ∈ events, e.Early)
    (hroom : Room checks (History.of fromSlice events).passes.length) :
    ∃ b, (Board.start frame).run art checks fromSlice events = .ok b ∧
      Tracks art checks fromSlice (History.of fromSlice events) b := by
  induction events using List.reverseRecOn with
  | nil => exact ⟨_, rfl, tracks_start frame⟩
  | append_singleton events e ih =>
    rw [History.of_concat] at hroom ⊢
    have hroom' : Room checks (History.of fromSlice events).passes.length := by
      intro hchecks
      have hlt := hroom hchecks
      have hle : (History.of fromSlice events).passes.length ≤
          ((History.of fromSlice events).step fromSlice e).passes.length := by
        cases e <;> simp [History.step]
      omega
    obtain ⟨hbefore, hlast⟩ := List.forall_mem_append.mp hearly
    obtain ⟨b, hrun, htracks⟩ := ih hbefore hroom'
    obtain ⟨b', hstep, hnext⟩ := tracks_step htracks (hlast e (List.mem_singleton_self e)) hroom'
    refine ⟨b', ?_, hnext⟩
    rw [Board.run] at hrun ⊢
    rw [List.foldlM_append, hrun]
    exact (bind_pure _).trans hstep

/-- From the wire to the panel: however the bytes of the connections come in, and whichever touches
and flushes that fail early come between, the panel shows the picture of the last pass that was
flushed, with the last update that had been queued by then, for as many passes as it asks for. -/
theorem panel_follows_events (art : Art) (checks : Bool)
    (fromSlice : List UInt8 → Option (RawBehaviorUpdate × ℕ)) (frame : Vector UInt8 frameCapacity)
    (events : List Event) (hearly : ∀ e ∈ events, e.Early)
    (hroom : Room checks (History.of fromSlice events).passes.length) :
    ∃ b, (Board.start frame).run art checks fromSlice events = .ok b ∧
      match (History.of fromSlice events).flushed with
      | none => b.chip.Shows .cube .blank
      | some i => ∃ fb, picture art checks (History.of fromSlice events).passes i = .ok fb ∧
          b.chip.Shows .cube fb := by
  obtain ⟨b, hrun, htracks⟩ := tracks_run art checks fromSlice frame events hearly hroom
  obtain ⟨shown, hshowing, hpicture⟩ := htracks.shown
  refine ⟨b, hrun, ?_⟩
  cases hflushed : (History.of fromSlice events).flushed with
  | none =>
    simp only [hflushed] at hpicture
    exact hpicture ▸ hshowing.shows
  | some i =>
    simp only [hflushed] at hpicture
    exact ⟨shown, hpicture.2, hshowing.shows⟩

end Running

def plainArt : Art := ⟨[0xffff], fun _ => ⟨0, 0, 1, 1, [0x80, 0]⟩, fun _ _ => [], fun _ => []⟩

/-- A touch without a host, and then a flush that fails. -/
theorem panel_follows_events_tap : ∃ b, (Board.start (R := handingOver) (.replicate _ 0)).run
      (R := handingOver) plainArt true (fun _ => none)
      [.acknowledged .tap, .pass none, .pass (some 3)] = .ok b ∧
    ∃ fb, picture plainArt true [some (localAck .tap 0), none] 0 = .ok fb ∧
      b.chip.Shows .cube fb :=
  panel_follows_events (R := handingOver) plainArt true (fun _ => none) (.replicate _ 0)
    [.acknowledged .tap, .pass none, .pass (some 3)] (by decide) (fun _ => by decide)

end Hologotchi.Device
