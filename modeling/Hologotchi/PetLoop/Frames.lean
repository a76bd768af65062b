import Hologotchi.PetLoop.Valid
import Hologotchi.Firmware.FlatDecoder

/-! Every frame the pet loop sends is valid, and the firmware accepts it. -/
namespace Hologotchi.PetLoop

open Python Library Protocol Presence Body Inputs Firmware

/-- What the device needs of a command. -/
structure Accepted (fromSlice : List UInt8 → Option (RawBehaviorUpdate × ℕ))
    (c : BehaviorCommand) : Prop where
  mood : c.mood = c.animation.toMood
  alert : c.alert = true ↔ c.animation = .alert
  duration : 1000 ≤ c.durationMs ∧ c.durationMs ≤ 15000
  text : ∀ t ∈ c.text, 1 ≤ t.length ∧ t.length ≤ 24 ∧ ∀ d ∈ t, 32 ≤ d ∧ d ≤ 126
  fits : c.toJsonLine.length ≤ frameCapacity
  parsed : ∃ update, parse fromSlice (encodeAscii c.toJsonLine) = .ok update ∧
    parse fromSlice (encodeAscii (FlatJson.print c.payload)) = .ok update ∧
    update.mood = c.mood ∧ update.animation = c.animation ∧ update.alert = c.alert ∧
    (update.durationMs.toNat : ℤ) = c.durationMs

variable {fromSlice : List UInt8 → Option (RawBehaviorUpdate × ℕ)} {c : BehaviorCommand}

/-- A valid command is accepted. -/
theorem accepted_of_valid (hslice : DeserializesFlat fromSlice) (h : c.Valid) :
    Accepted fromSlice c where
  mood := h.mood
  alert := by simp [h.alert]
  duration := h.duration
  text := by
    intro t ht
    have hshow := h.text t ht
    exact ⟨List.length_pos_iff.mpr hshow.ne_nil, hshow.length_le,
      printable_bounds hshow.printable⟩
  fits := by
    have hlen := length_print_payload h
    rw [BehaviorCommand.toJsonLine, List.length_append, List.length_singleton, frameCapacity]
    omega
  parsed := ⟨updateOf c h, parse_toJsonLine hslice h, parse_frame hslice h, rfl, rfl, rfl,
    durationMs_rawOf h⟩

variable {config : PetLoopConfig} {l : Loop} {i : TickInput}

/-- Every frame of a cycle is valid when the proposal is. -/
theorem frames_valid (h : ∀ p ∈ i.outcome, p.behavior.Valid) :
    ∀ frame ∈ (tick config l i).2.frames, frame.Valid := by
  intro frame hframe
  rcases List.mem_append.mp hframe with hack | hmain
  · have hack := Option.mem_toList.mp hack
    simp only [tick] at hack
    split at hack
    · obtain rfl := Option.some.inj hack
      exact touchAckBehavior_valid _ _ _
    · cases hack
  · obtain rfl := List.mem_singleton.mp hmain
    have hproposed : (unpackProposal i.event i.outcome).1.Valid := unpackProposal_valid h
    have hnovel := applyNovelty_valid hproposed { l.state with affect := i.affect } i.event
    apply burnInGuardrail_valid
    apply adaptLoopBehavior_valid
    exact clampBehavior_valid hnovel _ _

/-- Whatever state the loop is in and whatever the model answers, the firmware accepts the frames
of the cycle, and would accept the acknowledgement of any touch. -/
theorem sent_frames_accepted (hslice : DeserializesFlat fromSlice) (config : PetLoopConfig)
    (l : Loop) (i : TickInput)
    (hmodel : ∀ p ∈ i.outcome, ∃ dec response, parseBehaviorProposal dec response = .ok p) :
    (∀ frame ∈ (tick config l i).2.frames, Accepted fromSlice frame) ∧
    ∀ event hasPresence body, Accepted fromSlice (touchAckBehavior event hasPresence body) := by
  constructor
  · intro frame hframe
    apply accepted_of_valid hslice
    apply frames_valid _ frame hframe
    intro p hp
    obtain ⟨dec, response, hparse⟩ := hmodel p hp
    exact parseBehaviorProposal_valid hparse
  · intro event hasPresence body
    exact accepted_of_valid hslice (touchAckBehavior_valid event hasPresence body)

/-- A model reply that asks for a walk, quoting something. -/
def walkReply : Str :=
  str ("\x7b\"v\":1,\"kind\":\"behavior\",\"mood\":\"happy\",\"animation\":\"walk\"," ++
    "\"text\":\" say \\\"hi\\\" \",\"alert\":false,\"duration_ms\":2000," ++
    "\"body_state\":\"awake\"\x7d")

def walkObject : Json :=
  .obj [(str "v", .int 1), (str "kind", .str (str "behavior")), (str "mood", .str (str "happy")),
    (str "animation", .str (str "walk")), (str "text", .str (str " say \"hi\" ")),
    (str "alert", .bool false), (str "duration_ms", .int 2000),
    (str "body_state", .str (str "awake"))]

def walkProposal : BehaviorProposal where
  behavior := ⟨.curious, .walk, some (str "say \"hi\""), false, 2000⟩
  intent := none
  bodyState := some (str "awake")

theorem parse_walkReply :
    parseBehaviorProposal (replyDecoder walkReply walkObject) walkReply = .ok walkProposal := by
  simp only [parseBehaviorProposal, load_replyDecoder]
  rfl

def walkInput : TickInput where
  now := 100
  event := { id := str "touch-7", source := str "touch", event := str "tap", gesture := str "tap" }
  affect := {}
  report := {
    state := .engaged, ignoredSeconds := 0, awaySeconds := 0, returnedFromAway := false,
    awayBeforeReturn := 0, focusApp := none, focusSeconds := 0, focusPressure := 0 }
  localHour := 12
  hasPresence := true
  outcome := some walkProposal

theorem sent_frames_accepted_walk :
    Accepted fromSliceFlat (tick .default {} walkInput).2.main := by
  have hmodel : ∀ p ∈ walkInput.outcome, ∃ dec response,
      parseBehaviorProposal dec response = .ok p := by
    intro p hp
    obtain rfl := Option.some.inj hp
    exact ⟨_, _, parse_walkReply⟩
  have hframes := (sent_frames_accepted deserializesFlat_fromSliceFlat .default {} walkInput hmodel).1
  exact hframes _ (List.mem_append_right _ (List.mem_singleton_self _))

end Hologotchi.PetLoop
