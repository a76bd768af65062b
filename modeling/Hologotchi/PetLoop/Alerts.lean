import Hologotchi.PetLoop.Coherence
import Hologotchi.PetLoop.Frames

/-! Which cycles raise an alert. -/
namespace Hologotchi.PetLoop

open Python Library Protocol Presence Body Inputs

def selfNudgeMinSeconds : ℚ := 30 * 60
def selfAlertIgnoredSeconds : ℚ := 2 * 3600

/-- The situation of this cycle carries a self-made attention alert (`_self_nudge_note`). -/
def selfMadeAlert (event : LoopEvent) (report : PresenceReport) (lastSelfNudgeAt now : ℚ) : Bool :=
  event.source = str "idle" ∧ ¬ now - lastSelfNudgeAt < selfNudgeMinSeconds ∧
    report.ignoring ∧ selfAlertIgnoredSeconds ≤ report.ignoredSeconds

/-- What the model came up with, if anything, is a proposal the parser accepts. -/
def TickInput.Parsed (i : TickInput) : Prop :=
  ∀ p ∈ i.outcome, ∃ dec response, parseBehaviorProposal dec response = .ok p

variable {config : PetLoopConfig} {l : Loop} {i : TickInput} {c : BehaviorCommand}
  {state : PetState} {event : LoopEvent}

theorem applyNovelty_alert (c : BehaviorCommand) (state : PetState) (event : LoopEvent) :
    (applyNovelty c state event).alert = c.alert := by
  simp only [applyNovelty]
  split
  · rfl
  · rename_i hkept
    have hcalm : c.alert = false := by
      cases halert : c.alert with
      | false => rfl
      | true => exact absurd (.inl halert) hkept
    split
    · exact hcalm.symm
    · rfl

/-- An alert is not exchanged for another pose. -/
theorem applyNovelty_animation (h : c.alert = true) :
    (applyNovelty c state event).animation = c.animation := by
  simp only [applyNovelty]
  rw [if_pos (.inl h)]

/-- A proposal that is not an alert leaves the body in a state it was offered, and no later stage
raises an alert. -/
theorem tick_calm (h : (unpackProposal i.event i.outcome).1.alert = false) :
    (tick config l i).2.main.alert = false ∧
      (tick config l i).1.body.state ∈ (i.bodyTick l).situation.allowedStates := by
  have hproposed : (i.proposed l).alert = false := (applyNovelty_alert _ _ _).trans h
  constructor
  · obtain ⟨-, halert⟩ | ⟨-, -, halert⟩ := main_cases config l i
    · rw [halert, bodyTick_command]
      by_cases hawake : (i.bodyTick l).after.state = .awake
      · simp only [clampBehavior, if_pos hawake]
        exact hproposed
      · exact (clampBehavior_asleep hawake _ _).2
    · exact halert
  · have hallowed : (i.bodyTick l).after.state ∈ (i.bodyTick l).situation.allowedStates ∨
        ((i.proposed l).alert = true ∧ (i.bodyTick l).after.state = .awake) := tick_after_allowed
    obtain hmem | ⟨halert, -⟩ := hallowed
    · exact hmem
    · rw [hproposed] at halert
      contradiction

/-- An alert goes out as it is, and the body is awake after it. -/
theorem tick_alert (h : (unpackProposal i.event i.outcome).1.alert = true)
    (hanimation : (unpackProposal i.event i.outcome).1.animation = .alert) :
    (tick config l i).2.main.alert = true ∧ (tick config l i).2.main.animation = .alert ∧
      (tick config l i).1.body.state = .awake := by
  have hproposed : (i.proposed l).alert = true := (applyNovelty_alert _ _ _).trans h
  have hpose : (i.proposed l).animation = .alert := (applyNovelty_animation h).trans hanimation
  have hawake : (i.bodyTick l).after.state = .awake := by
    have htarget : (i.bodyTick l).after.state = BodyModel.target (i.bodyTick l).situation
        (i.proposed l) (unpackProposal i.event i.outcome).2 := tick_after_state
    rw [htarget, BodyModel.target, if_pos hproposed]
  have hcommand : (i.bodyTick l).command = i.proposed l := by
    rw [bodyTick_command, hawake]
    rfl
  obtain ⟨hmain, halert⟩ | ⟨hstatic, -⟩ := main_cases config l i
  · rw [hmain, halert, hcommand]
    exact ⟨hproposed, hpose, hawake⟩
  · rw [hawake, hcommand, hpose] at hstatic
    exact absurd hstatic (by decide)

theorem parsed_valid (h : i.Parsed) : ∀ p ∈ i.outcome, p.behavior.Valid := by
  intro p hp
  obtain ⟨dec, response, hparse⟩ := h p hp
  exact parseBehaviorProposal_valid hparse

/-- An important alert reaches the device and wakes the body exactly when the model fails or
answers with an alert. -/
theorem important_alert_iff (config : PetLoopConfig) (l : Loop) (i : TickInput)
    (hsource : i.event.source = str "important_alert") (hmodel : i.Parsed) :
    ((tick config l i).2.main.alert = true ∧ (tick config l i).2.main.animation = .alert ∧
      (tick config l i).1.body.state = .awake) ↔
    ∀ p ∈ i.outcome, p.behavior.animation = .alert := by
  have hvalid := parsed_valid hmodel
  constructor
  · rintro ⟨halert, -, -⟩ p hp
    by_contra hcalm
    have hproposal : (unpackProposal i.event i.outcome).1.alert = false := by
      rw [hp]
      exact (hvalid p hp).alert.trans (beq_false_of_ne hcalm)
    rw [(tick_calm hproposal).1] at halert
    contradiction
  · intro hanswer
    cases houtcome : i.outcome with
    | none =>
      have hfallback : unpackProposal i.event i.outcome =
          (⟨.alert, .alert, some (str "look now"), true, 6500⟩, none) := by
        simp only [houtcome, unpackProposal, fallbackBehavior, if_pos hsource]
      apply tick_alert <;> rw [hfallback]
    | some p =>
      have hpose := hanswer p houtcome
      have halert := (hvalid p houtcome).alert
      apply tick_alert
      · rw [houtcome]
        exact halert.trans (beq_iff_eq.mpr hpose)
      · rw [houtcome]
        exact hpose

/-- A model reply that plays. -/
def playReply : Str :=
  str ("\x7b\"v\":1,\"kind\":\"behavior\",\"mood\":\"happy\",\"animation\":\"play\"," ++
    "\"alert\":false,\"duration_ms\":3000\x7d")

def playObject : Json :=
  .obj [(str "v", .int 1), (str "kind", .str (str "behavior")), (str "mood", .str (str "happy")),
    (str "animation", .str (str "play")), (str "alert", .bool false), (str "duration_ms", .int 3000)]

def playProposal : BehaviorProposal where
  behavior := ⟨Animation.play.toMood, .play, none, false, 3000⟩
  intent := none
  bodyState := none

theorem parse_playReply :
    parseBehaviorProposal (replyDecoder playReply playObject) playReply = .ok playProposal := by
  simp only [parseBehaviorProposal, load_replyDecoder]
  rfl

/-- A model reply that raises an alert. -/
def alertReply : Str :=
  str ("\x7b\"v\":1,\"kind\":\"behavior\",\"mood\":\"alert\",\"animation\":\"alert\"," ++
    "\"text\":\"look now\",\"alert\":true,\"duration_ms\":3000\x7d")

def alertObject : Json :=
  .obj [(str "v", .int 1), (str "kind", .str (str "behavior")), (str "mood", .str (str "alert")),
    (str "animation", .str (str "alert")), (str "text", .str (str "look now")),
    (str "alert", .bool true), (str "duration_ms", .int 3000)]

def alertProposal : BehaviorProposal where
  behavior := ⟨.alert, .alert, some (str "look now"), true, 3000⟩
  intent := none
  bodyState := none

theorem parse_alertReply :
    parseBehaviorProposal (replyDecoder alertReply alertObject) alertReply = .ok alertProposal := by
  simp only [parseBehaviorProposal, load_replyDecoder]
  rfl

/-- A cycle with an owner who is away. -/
def awayInput (source event : Str) (outcome : Option BehaviorProposal) : TickInput where
  now := 1000
  event := { id := str "input-1", source := source, event := event }
  affect := {}
  report := {
    state := .away, ignoredSeconds := 0, awaySeconds := 600, returnedFromAway := false,
    awayBeforeReturn := 0, focusApp := none, focusSeconds := 0, focusPressure := 0 }
  localHour := 14
  hasPresence := false
  outcome := outcome

/-- The meeting that starts now, with what the model makes of it. -/
def meetingInput (outcome : Option BehaviorProposal) : TickInput :=
  awayInput (str "important_alert") (str "Important alert: meeting starts now") outcome

theorem parsed_playProposal (source event : Str) :
    (awayInput source event (some playProposal)).Parsed := by
  intro p hp
  obtain rfl := Option.some.inj hp
  exact ⟨_, _, parse_playReply⟩

theorem parsed_alertProposal (source event : Str) :
    (awayInput source event (some alertProposal)).Parsed := by
  intro p hp
  obtain rfl := Option.some.inj hp
  exact ⟨_, _, parse_alertReply⟩

theorem important_alert_iff_sleeper :
    (tick .default sleeper (meetingInput (some alertProposal))).2.main.alert = true ∧
      (tick .default sleeper (meetingInput (some alertProposal))).2.main.animation = .alert ∧
      (tick .default sleeper (meetingInput (some alertProposal))).1.body.state = .awake := by
  have hanswer : ∀ p ∈ (meetingInput (some alertProposal)).outcome,
      p.behavior.animation = .alert := by
    intro p hp
    obtain rfl := Option.some.inj hp
    rfl
  exact (important_alert_iff .default sleeper (meetingInput (some alertProposal)) rfl
    (parsed_alertProposal _ _)).mpr hanswer

/-- A model that would rather play keeps the alert from the device. -/
theorem important_alert_fails :
    ¬ ∀ (config : PetLoopConfig) (l : Loop) (i : TickInput),
      i.event.source = str "important_alert" → i.Parsed →
      (tick config l i).2.main.alert = true ∧ (tick config l i).2.main.animation = .alert ∧
        (tick config l i).1.body.state = .awake := by
  intro h
  have halert := (h .default sleeper (meetingInput (some playProposal)) rfl
    (parsed_playProposal _ _)).1
  revert halert
  decide +kernel

/-- Outside an important alert the device is alerted exactly when the model proposes an alert, which
then wakes the body; otherwise the body goes where it was offered to go. -/
theorem alarm_iff_proposed (config : PetLoopConfig) (l : Loop) (i : TickInput)
    (hsource : i.event.source ≠ str "important_alert") (hmodel : i.Parsed) :
    ((tick config l i).2.main.alert = true ↔ ∃ p ∈ i.outcome, p.behavior.animation = .alert) ∧
      ((∀ p ∈ i.outcome, p.behavior.animation ≠ .alert) →
        (tick config l i).1.body.state ∈ (i.bodyTick l).situation.allowedStates) ∧
      ((∃ p ∈ i.outcome, p.behavior.animation = .alert) →
        (tick config l i).1.body.state = .awake) := by
  have hvalid := parsed_valid hmodel
  have hraised : (∃ p ∈ i.outcome, p.behavior.animation = .alert) →
      (tick config l i).2.main.alert = true ∧ (tick config l i).2.main.animation = .alert ∧
        (tick config l i).1.body.state = .awake := by
    rintro ⟨p, hp, hpose⟩
    have hproposal : unpackProposal i.event i.outcome = (p.behavior, p.bodyState) := by
      rw [hp]
      rfl
    apply tick_alert
    · rw [hproposal]
      exact (hvalid p hp).alert.trans (beq_iff_eq.mpr hpose)
    · rw [hproposal]
      exact hpose
  have hcalm : (∀ p ∈ i.outcome, p.behavior.animation ≠ .alert) →
      (tick config l i).2.main.alert = false ∧
        (tick config l i).1.body.state ∈ (i.bodyTick l).situation.allowedStates := by
    intro hanswer
    apply tick_calm
    cases houtcome : i.outcome with
    | none =>
      simp only [unpackProposal, fallbackBehavior, if_neg hsource]
      split <;> rfl
    | some p => exact (hvalid p houtcome).alert.trans (beq_false_of_ne (hanswer p houtcome))
  refine ⟨⟨?_, fun hanswer => (hraised hanswer).1⟩, fun hanswer => (hcalm hanswer).2,
    fun hanswer => (hraised hanswer).2.2⟩
  intro halert
  by_contra hnone
  have hanswer : ∀ p ∈ i.outcome, p.behavior.animation ≠ .alert := by
    intro p hp hpose
    exact hnone ⟨p, hp, hpose⟩
  rw [(hcalm hanswer).1] at halert
  contradiction

theorem alarm_iff_proposed_play :
    (tick .default sleeper (awayInput (str "idle") (str "Quiet desk time.")
      (some playProposal))).1.body.state ∈ [BodyState.sleeping, .drowsy] := by
  have hplay := alarm_iff_proposed .default sleeper
    (awayInput (str "idle") (str "Quiet desk time.") (some playProposal)) (by decide)
    (parsed_playProposal _ _)
  have hoffered : ((awayInput (str "idle") (str "Quiet desk time.")
      (some playProposal)).bodyTick sleeper).situation.allowedStates = [.sleeping, .drowsy] := by
    decide +kernel
  rw [← hoffered]
  apply hplay.2.1
  intro p hp
  obtain rfl := Option.some.inj hp
  decide

/-- A model that raises an alert on a quiet tick alarms the owner and wakes a sleeper. -/
theorem false_alarm :
    ¬ ∀ (config : PetLoopConfig) (l : Loop) (i : TickInput) (lastSelfNudgeAt : ℚ),
      i.event.source ≠ str "important_alert" →
      selfMadeAlert i.event i.report lastSelfNudgeAt i.now = false → i.Parsed →
      (tick config l i).2.main.alert = false ∧
        (l.body.state = .sleeping → (tick config l i).1.body.state = .awake →
          .awake ∈ (i.bodyTick l).situation.allowedStates) := by
  intro h
  have hquiet := (h .default sleeper (awayInput (str "idle") (str "Quiet desk time.")
    (some alertProposal)) 0 (by decide) (by decide +kernel) (parsed_alertProposal _ _)).1
  revert hquiet
  decide +kernel

end Hologotchi.PetLoop
