import Hologotchi.Body.Model
import Hologotchi.Inputs

/-! The pet loop from a model output to the frames it sends (`host/pet_loop.py`). -/
namespace Hologotchi.PetLoop

open Python Library Protocol Presence Body Inputs

def idleCapableAnimations : List Animation := [.idle, .blink, .lookAround]
def idleLoopDurationMs : ℤ := 3000
def walkMinDurationMs : ℤ := 6500
def touchAckDurationMs : ℤ := 8000
def burnInIntervalSeconds : ℚ := 150
def burnInDurationMs : ℤ := 1500
def recentPhraseLimit : ℕ := 5
def recentAnimationLimit : ℕ := 5
/-- Poses that hold pixels nearly static. -/
def staticAnimations : List Animation := [.idle, .nap, .sleepy]

structure PetLoopConfig where
  intervalSeconds : ℚ := 6
  interval_pos : 0 < intervalSeconds := by norm_num

def PetLoopConfig.default : PetLoopConfig := {}

structure PetState where
  affect : Affect := {}
  recentPhrases : List Str := []
  recentAnimations : List Animation := []
  lastMicromotionAt : ℚ := 0

structure LoopEvent where
  id : Str
  source : Str
  event : Str
  gesture : Option Str := none
  deriving DecidableEq, Repr

/-- `from_input`. -/
def LoopEvent.ofInput (item : HostInput) : LoopEvent :=
  ⟨item.id, item.source, item.event, item.gesture⟩

/-- The number after the last dash of an id, or 0. -/
def eventIndex (inputId : Str) : ℤ :=
  if 45 ∈ inputId then (parseInt (inputId.rtakeWhile (· ≠ 45))).getD 0 else 0

/-- The texts of each gesture. -/
abbrev TouchTexts := List (Str × List Str)

def noPresenceTouchText : TouchTexts :=
  [(str "tap", [str "who you?", str "new hand?", str "huh? you?", str "boop ghost?"]),
    (str "hold", [str "human? there?", str "still you?", str "hand there?", str "hello hand?"]),
    (str "doubletap", [str "whoa? whoa?", str "two boops?", str "wait what?", str "again??"])]

def loveTouchText : TouchTexts :=
  [(str "tap", [str "love!", str "luv you", str "big love", str "tail love"]),
    (str "hold", [str "love you", str "soft love", str "warm love", str "best human"]),
    (str "doubletap", [str "love love", str "boop love", str "more love", str "yes love"])]

def sleepTouchText : TouchTexts :=
  [(str "tap", [str "let me sleep", str "sleep pls", str "five more", str "zzz pls"]),
    (str "hold", [str "still eepy", str "sleepy pls", str "dreaming", str "soft sleep"]),
    (str "doubletap", [str "no zoomies", str "zzz zoomies", str "later pls", str "eepy eepy"])]

def touchText (event : LoopEvent) (options : TouchTexts) : Str :=
  let choices := ((event.gesture.bind (List.lookup · options)).or (options.lookup (str "tap"))).getD []
  choices.getD (eventIndex event.id % choices.length).toNat []

def touchAckBehavior (event : LoopEvent) (hasPresence : Bool) (body : BodySituation) :
    BehaviorCommand :=
  let (animation, text) :=
    if !hasPresence then (Animation.confused, touchText event noPresenceTouchText)
    else if body.state = .sleeping then (.sleepy, touchText event sleepTouchText)
    else (.excited, touchText event loveTouchText)
  { mood := animation.toMood
    animation := animation
    text := some text
    alert := false
    durationMs := touchAckDurationMs }

def fallbackBehavior (event : LoopEvent) : BehaviorCommand :=
  if event.source = str "important_alert" then
    { mood := .alert, animation := .alert, text := some (str "look now"), alert := true,
      durationMs := 6500 }
  else if event.source = str touchSource then
    { mood := Animation.confused.toMood, animation := .confused, text := some (str "???"),
      alert := false, durationMs := 4000 }
  else { mood := .calm, animation := .idle, text := none, alert := false, durationMs := 5000 }

/-- The proposal, or the fallback when the model failed; with the proposed body state. -/
def unpackProposal (event : LoopEvent) (outcome : Option BehaviorProposal) :
    BehaviorCommand × Option Str :=
  match outcome with
  | some p => (p.behavior, p.bodyState)
  | none => (fallbackBehavior event, none)

def applyNovelty (behavior : BehaviorCommand) (state : PetState) (event : LoopEvent) :
    BehaviorCommand :=
  let text := behavior.text.filter (· ∉ state.recentPhrases)
  if behavior.alert ∨ event.source = str "important_alert" ∨
      behavior.animation ∉ state.recentAnimations then
    { behavior with text }
  else
    match state.affect.suggestedAnimations.find?
        (fun a => a ≠ .alert ∧ a ∉ state.recentAnimations) with
    | some animation =>
      { mood := animation.toMood
        animation := animation
        text := if animation ∈ idleCapableAnimations then none else text
        alert := false
        durationMs := behavior.durationMs }
    | none => { behavior with text }

def adaptLoopBehavior (behavior : BehaviorCommand) (config : PetLoopConfig) : BehaviorCommand :=
  if behavior.animation = .walk ∧ behavior.durationMs < walkMinDurationMs then
    { behavior with durationMs := walkMinDurationMs }
  else if behavior.animation ∉ idleCapableAnimations then behavior
  else
    let loopGapMs := max 1000 ((config.intervalSeconds * 1000).floor / 2)
    { behavior with
      durationMs := min behavior.durationMs (min idleLoopDurationMs loopGapMs) }

/-- The frame to send, and the state with its burn-in timer. -/
def burnInGuardrail (behavior : BehaviorCommand) (state : PetState) (bodyState : BodyState)
    (now : ℚ) : BehaviorCommand × PetState :=
  let static := bodyState = .sleeping ∨ bodyState = .drowsy ∨
    behavior.animation ∈ staticAnimations
  if ¬ static ∨ state.recentAnimations.getLast? ≠ some behavior.animation then
    (behavior, { state with lastMicromotionAt := now })
  else if state.lastMicromotionAt ≤ 0 then (behavior, { state with lastMicromotionAt := now })
  else if now - state.lastMicromotionAt < burnInIntervalSeconds then (behavior, state)
  else
    -- The same static pose has been held too long.
    ({ mood := Animation.blink.toMood, animation := .blink, text := none, alert := false,
       durationMs := burnInDurationMs }, { state with lastMicromotionAt := now })

/-- `observe`, as far as later frames depend on it. -/
def PetState.observe (state : PetState) (behavior : BehaviorCommand) : PetState :=
  { state with
    recentPhrases := match behavior.text.filter (· ≠ []) with
      | some text => (state.recentPhrases ++ [text]).rtake recentPhraseLimit
      | none => state.recentPhrases
    recentAnimations :=
      (state.recentAnimations ++ [behavior.animation]).rtake recentAnimationLimit }

structure TickInput where
  now : ℚ
  event : LoopEvent
  /-- The drives after the updates of this cycle. -/
  affect : Affect
  report : PresenceReport
  localHour : ℤ
  hasPresence : Bool
  /-- What the model proposed, or nothing after an `OllamaError`. -/
  outcome : Option BehaviorProposal

structure Loop where
  state : PetState := {}
  body : BodyModel := {}

/-- The frames of one cycle. -/
structure Sent where
  touchAck : Option BehaviorCommand
  main : BehaviorCommand

def Sent.frames (s : Sent) : List BehaviorCommand := s.touchAck.toList ++ [s.main]

def tick (config : PetLoopConfig) (l : Loop) (i : TickInput) : Loop × Sent :=
  let touched := i.event.source = str touchSource
  let state := { l.state with affect := i.affect }
  let body := if touched then { l.body with lastTouchAt := i.now } else l.body
  let (body, situation) := body.advance i.now i.affect (some i.report) i.event.source i.localHour
  let touchAck :=
    if touched then some (touchAckBehavior i.event i.hasPresence situation) else none
  let (behavior, proposed) := unpackProposal i.event i.outcome
  let behavior := applyNovelty behavior state i.event
  let (body, behavior, bodyState) := body.resolve situation behavior proposed i.now
  let behavior := adaptLoopBehavior behavior config
  let (behavior, state) := burnInGuardrail behavior state bodyState i.now
  (⟨state.observe behavior, body⟩, ⟨touchAck, behavior⟩)

end Hologotchi.PetLoop
