import Hologotchi.PetLoop.Valid
import Hologotchi.Body.Ticks

/-! The frames of a cycle against the body they are shown with. -/
namespace Hologotchi.PetLoop

open Python Library Protocol Presence Body Inputs

variable {config : PetLoopConfig} {l : Loop} {i : TickInput} {c : BehaviorCommand} {s : BodyState}
  {a : Animation}

/-- What the model asked for, rewritten so that it does not repeat. -/
def TickInput.proposed (i : TickInput) (l : Loop) : BehaviorCommand :=
  applyNovelty (unpackProposal i.event i.outcome).1 { l.state with affect := i.affect } i.event

/-- The body tick inside a cycle. -/
def TickInput.bodyTick (i : TickInput) (l : Loop) : Body.Tick :=
  let touched := i.event.source = str touchSource
  Body.tick (if touched then { l.body with lastTouchAt := i.now } else l.body) {
    now := i.now
    affect := i.affect
    report := some i.report
    eventSource := i.event.source
    localHour := i.localHour
    behavior := i.proposed l
    proposed := (unpackProposal i.event i.outcome).2 }

theorem tick_body : (tick config l i).1.body = (i.bodyTick l).after := rfl

theorem tick_main : (tick config l i).2.main =
    (burnInGuardrail (adaptLoopBehavior (i.bodyTick l).command config)
      { l.state with affect := i.affect } (i.bodyTick l).after.state i.now).1 := by
  have hstate : (i.bodyTick l).after.state = BodyModel.target (i.bodyTick l).situation
      (i.proposed l) (unpackProposal i.event i.outcome).2 := tick_after_state
  rw [hstate]
  rfl

theorem tick_state : (tick config l i).1.state =
    (burnInGuardrail (adaptLoopBehavior (i.bodyTick l).command config)
      { l.state with affect := i.affect } (i.bodyTick l).after.state i.now).2.observe
        (tick config l i).2.main := by
  have hstate : (i.bodyTick l).after.state = BodyModel.target (i.bodyTick l).situation
      (i.proposed l) (PetLoop.unpackProposal i.event i.outcome).2 := tick_after_state
  rw [hstate]
  rfl

theorem observe_recentAnimations (state : PetState) (c : BehaviorCommand) :
    (state.observe c).recentAnimations =
      (state.recentAnimations ++ [c.animation]).rtake recentAnimationLimit := rfl

theorem bodyTick_before_state : (i.bodyTick l).before.state = l.body.state := by
  simp only [TickInput.bodyTick, tick_before]
  split <;> rfl

theorem adaptLoopBehavior_animation (c : BehaviorCommand) (config : PetLoopConfig) :
    (adaptLoopBehavior c config).animation = c.animation ∧
      (adaptLoopBehavior c config).alert = c.alert := by
  simp only [adaptLoopBehavior]
  split_ifs <;> exact ⟨rfl, rfl⟩

/-- The guardrail leaves a frame alone, or flickers a pose that has been held. -/
theorem burnInGuardrail_cases (c : BehaviorCommand) (state : PetState) (s : BodyState) (now : ℚ) :
    (burnInGuardrail c state s now).1 = c ∨
      ((s = .sleeping ∨ s = .drowsy ∨ c.animation ∈ staticAnimations) ∧
        (burnInGuardrail c state s now).1.animation = .blink ∧
        (burnInGuardrail c state s now).1.alert = false) := by
  simp only [burnInGuardrail]
  split_ifs with hmoving
  · exact .inl rfl
  · exact .inl rfl
  · exact .inl rfl
  · exact .inr ⟨not_not.mp fun hstatic => hmoving (.inl hstatic), rfl, rfl⟩

theorem clampBehavior_asleep (h : s ≠ .awake) (c : BehaviorCommand) (entered : Bool) :
    (clampBehavior c s entered).animation = clampAnimation c.animation s entered ∧
      (clampBehavior c s entered).alert = false := by
  simp only [clampBehavior, if_neg h]
  split
  · rename_i hkept
    exact ⟨hkept.1.symm, by simpa using hkept.2⟩
  · exact ⟨rfl, rfl⟩

theorem clampAnimation_mem (h : s ≠ .awake) (a : Animation) (entered : Bool) :
    clampAnimation a s entered ∈ animationsForState s := by
  have hbeat : ∀ a ∈ sleepBeat, a ∈ sleepAnimations := by decide
  simp only [clampAnimation]
  split_ifs with hentered hsleeping hkept hfits
  · rw [hentered.1]
    decide
  · rw [hsleeping]
    exact hbeat a hkept
  · rw [hsleeping]
    decide
  · exact hfits
  · cases s with
    | awake => contradiction
    | drowsy => decide
    | sleeping => decide
    | waking => decide

theorem blink_mem (h : s ≠ .awake) : .blink ∈ animationsForState s := by
  cases s with
  | awake => contradiction
  | drowsy => decide
  | sleeping => decide
  | waking => decide

/-- What suits a state that is offered is among the animations that are offered. -/
theorem mem_allowedAnimations {allowed : List BodyState} {affect : Affect}
    {report : Option PresenceReport} {allowAlert : Bool} (hs : s ∈ allowed) (hawake : s ≠ .awake)
    (ha : a ∈ animationsForState s) : a ∈ allowedAnimations allowed affect report allowAlert := by
  have hcalm : a ≠ .alert := by
    rintro rfl
    exact alert_notMem_animationsForState s ha
  have hcanonical : a ∈ canonicalAnimations := by cases a <;> decide
  simp only [allowedAnimations]
  generalize hoptions : allowed.flatMap _ = options
  have hoption : a ∈ options := by
    rw [← hoptions]
    apply List.mem_flatMap.mpr
    refine ⟨s, hs, ?_⟩
    cases s with
    | awake => contradiction
    | drowsy => exact ha
    | sleeping => exact ha
    | waking => exact ha
  have hkept : a ∈ if allowAlert then .alert :: options else options.filter (· ≠ .alert) := by
    split
    · exact List.mem_cons_of_mem _ hoption
    · exact List.mem_filter.mpr ⟨hoption, by simpa using hcalm⟩
  generalize (if allowAlert then _ else _) = offered at hkept ⊢
  have hordered : a ∈ canonicalAnimations.filter (· ∈ offered) :=
    List.mem_filter.mpr ⟨hcanonical, decide_eq_true hkept⟩
  split
  · rename_i hnil
    rw [hnil] at hordered
    cases hordered
  · exact hordered

/-- A body that is not awake is in a state it was offered, and no alert was asked for. -/
theorem asleep_allowed (h : (i.bodyTick l).after.state ≠ .awake) :
    (i.bodyTick l).after.state ∈ (i.bodyTick l).situation.allowedStates := by
  rcases tick_after_allowed with hmem | ⟨-, hawake⟩
  · exact hmem
  · exact absurd hawake h

theorem bodyTick_command : (i.bodyTick l).command =
    clampBehavior (i.proposed l) (i.bodyTick l).after.state
      (decide ((i.bodyTick l).after.state = .sleeping ∧
        (i.bodyTick l).advanced.state ≠ .sleeping)) := tick_command

/-- The frame is the clamped command, or a flicker of it. -/
theorem main_cases (config : PetLoopConfig) (l : Loop) (i : TickInput) :
    ((tick config l i).2.main.animation = (i.bodyTick l).command.animation ∧
        (tick config l i).2.main.alert = (i.bodyTick l).command.alert) ∨
      (((i.bodyTick l).after.state = .sleeping ∨ (i.bodyTick l).after.state = .drowsy ∨
          (i.bodyTick l).command.animation ∈ staticAnimations) ∧
        (tick config l i).2.main.animation = .blink ∧ (tick config l i).2.main.alert = false) := by
  obtain ⟨hanimation, halert⟩ := adaptLoopBehavior_animation (i.bodyTick l).command config
  rw [tick_main]
  obtain hkept | ⟨hstatic, hblink⟩ := burnInGuardrail_cases
    (adaptLoopBehavior (i.bodyTick l).command config) { l.state with affect := i.affect }
    (i.bodyTick l).after.state i.now
  · rw [hkept]
    exact .inl ⟨hanimation, halert⟩
  · rw [hanimation] at hstatic
    exact .inr ⟨hstatic, hblink⟩

/-- The frame of a cycle that leaves the body drowsy, asleep or waking suits that state. -/
theorem main_asleep (config : PetLoopConfig) (h : (i.bodyTick l).after.state ≠ .awake) :
    (tick config l i).2.main.alert = false ∧
      (tick config l i).2.main.animation ∈ animationsForState (i.bodyTick l).after.state := by
  obtain ⟨hclamp, hcalm⟩ := clampBehavior_asleep h (i.proposed l)
    (decide ((i.bodyTick l).after.state = .sleeping ∧ (i.bodyTick l).advanced.state ≠ .sleeping))
  rw [← bodyTick_command] at hclamp hcalm
  obtain ⟨hanimation, halert⟩ | ⟨-, hanimation, halert⟩ := main_cases config l i
  · rw [halert, hanimation, hclamp]
    exact ⟨hcalm, clampAnimation_mem h _ _⟩
  · rw [halert, hanimation]
    exact ⟨rfl, blink_mem h⟩

theorem mem_situation_allowedAnimations (h : (i.bodyTick l).after.state ≠ .awake)
    (ha : a ∈ animationsForState (i.bodyTick l).after.state) :
    a ∈ (i.bodyTick l).situation.allowedAnimations :=
  mem_allowedAnimations (asleep_allowed h) h ha

/-- A sleeper that stays asleep only shows a gentle beat. -/
theorem main_still_asleep (hbefore : l.body.state = .sleeping)
    (hafter : (i.bodyTick l).after.state = .sleeping) :
    (tick config l i).2.main.animation ∈ sleepBeat := by
  have hadvanced : (i.bodyTick l).advanced.state = .sleeping := by
    have hforce := force_state (i.bodyTick l).before i.now
    rw [bodyTick_before_state, hbefore] at hforce
    obtain hkept | ⟨hwaking, -⟩ := hforce
    · exact hkept
    · contradiction
  have hcommand := (clampBehavior_asleep (by decide : BodyState.sleeping ≠ .awake)
    (i.proposed l) false).1
  obtain ⟨hanimation, -⟩ | ⟨-, hanimation, -⟩ := main_cases config l i
  · rw [hanimation, bodyTick_command, hafter, hadvanced]
    simp only [ne_eq, not_true_eq_false, and_false, decide_false]
    rw [hcommand]
    simp only [clampAnimation, Bool.false_eq_true, and_false, if_false, if_true]
    split
    · assumption
    · decide
  · rw [hanimation]
    decide

/-- One cycle as it happened. -/
structure Cycle where
  input : TickInput
  before : Loop
  after : Loop
  sent : Sent

def cycle (config : PetLoopConfig) (l : Loop) (i : TickInput) : Cycle :=
  ⟨i, l, (tick config l i).1, (tick config l i).2⟩

/-- The cycles of a run. -/
def cycles (config : PetLoopConfig) (l : Loop) (is : List TickInput) : List Cycle :=
  answers (fun l i => ((tick config l i).1, cycle config l i)) l is

namespace Cycle

/-- The body state `resolve` chose. -/
def bodyState (c : Cycle) : BodyState := c.after.body.state

def situation (c : Cycle) : BodySituation := (c.input.bodyTick c.before).situation

/-- The drives after `observe` registered the frame. -/
def drives (c : Cycle) : Affect := c.input.affect.registerBehavior c.sent.main.animation

/-- The frame is one whose registration applies the deep recovery. -/
def deepNap (c : Cycle) : Bool := c.sent.main.animation = .nap

end Cycle

variable {is : List TickInput} {k : Cycle} {stretch before later : List Cycle}

theorem mem_cycles (h : k ∈ cycles config l is) : k = cycle config k.before k.input := by
  induction is generalizing l with
  | nil => cases h
  | cons i is ih =>
    obtain rfl | h := List.mem_cons.mp h
    · rfl
    · exact ih h

theorem cycles_chain (config : PetLoopConfig) (l : Loop) (is : List TickInput) :
    List.IsChain (fun k next => next.before = k.after) (cycles config l is) := by
  induction is generalizing l with
  | nil => exact .nil
  | cons i is ih =>
    cases is with
    | nil => exact .singleton _
    | cons j is => exact .cons_cons rfl (ih (tick config l i).1)

/-- Once the body sleeps, a stretch of sleep shows gentle beats only. -/
theorem beats_of_asleep (hchain : List.IsChain (fun k next => next.before = k.after) (k :: stretch))
    (hcycle : ∀ k' ∈ k :: stretch, k' = cycle config k'.before k'.input)
    (hasleep : ∀ k' ∈ k :: stretch, k'.bodyState = .sleeping) :
    ∀ k' ∈ stretch, k'.sent.main.animation ∈ sleepBeat := by
  induction stretch generalizing k with
  | nil => simp
  | cons next stretch ih =>
    obtain ⟨hnext, hchain⟩ := List.isChain_cons_cons.mp hchain
    intro k' hk'
    obtain rfl | hk' := List.mem_cons.mp hk'
    · have hbefore : k'.before.body.state = .sleeping := by
        rw [hnext]
        exact hasleep k (by simp)
      have hafter := hasleep k' (by simp)
      have hk := hcycle k' (by simp)
      rw [hk] at hafter ⊢
      exact main_still_asleep hbefore hafter
    · refine ih hchain ?_ ?_ k' hk'
      · intro k hk
        exact hcycle k (List.mem_cons_of_mem _ hk)
      · intro k hk
        exact hasleep k (List.mem_cons_of_mem _ hk)

theorem frame_fits (h : k ∈ cycles config l is) (hstate : k.bodyState ≠ .awake) :
    k.sent.main.alert = false ∧ k.sent.main.animation ∈ animationsForState k.bodyState ∧
      k.sent.main.animation ∈ k.situation.allowedAnimations := by
  have hk := mem_cycles h
  rw [hk] at hstate ⊢
  obtain ⟨hcalm, hfits⟩ := main_asleep config hstate
  exact ⟨hcalm, hfits, mem_situation_allowedAnimations hstate hfits⟩

/-- A nap falls asleep: the body was not asleep before. -/
theorem deepNap_enters (h : k ∈ cycles config l is) (hstate : k.bodyState = .sleeping)
    (hnap : k.deepNap = true) : k.before.body.state ≠ .sleeping := by
  intro hbefore
  have hk := mem_cycles h
  have hbeat : k.sent.main.animation ∈ sleepBeat := by
    rw [hk] at hstate ⊢
    exact main_still_asleep hbefore hstate
  rw [of_decide_eq_true hnap] at hbeat
  contradiction

theorem drives_of_not_deepNap (h : k ∈ cycles config l is) (hstate : k.bodyState = .sleeping)
    (hnap : k.deepNap = false) : k.drives = k.input.affect.registerBehavior .sleepy ∨
      k.drives = k.input.affect.registerBehavior .blink := by
  have hfits := (frame_fits h (by rw [hstate]; decide)).2.1
  have hne := of_decide_eq_false hnap
  rw [hstate] at hfits
  simp only [animationsForState, sleepAnimations, List.mem_cons, List.not_mem_nil, or_false] at hfits
  simp only [Cycle.drives]
  rcases hfits with hanimation | hanimation | hanimation
  · contradiction
  · exact .inl (by rw [hanimation])
  · exact .inr (by rw [hanimation])

/-- The frames of a run suit the body they are shown with, and a stretch of sleep has at most
one nap, the frame that enters it. -/
theorem frames_fit_body (config : PetLoopConfig) (l : Loop) (is : List TickInput) :
    (∀ k ∈ cycles config l is, k.bodyState ≠ .awake →
      k.sent.main.alert = false ∧ k.sent.main.animation ∈ animationsForState k.bodyState ∧
        k.sent.main.animation ∈ k.situation.allowedAnimations) ∧
    ∀ before stretch later, cycles config l is = before ++ (stretch ++ later) →
      (∀ k ∈ stretch, k.bodyState = .sleeping) →
      (∀ k ∈ stretch.tail, k.deepNap = false) ∧ stretch.countP Cycle.deepNap ≤ 1 ∧
        ∀ k ∈ stretch, (k.deepNap = true → k.before.body.state ≠ .sleeping) ∧
          (k.deepNap = false → k.drives = k.input.affect.registerBehavior .sleepy ∨
            k.drives = k.input.affect.registerBehavior .blink) := by
  constructor
  · intro k hk hstate
    exact frame_fits hk hstate
  · intro before stretch later hrun hasleep
    have hmem : ∀ k ∈ stretch, k ∈ cycles config l is := by
      intro k hk
      rw [hrun]
      exact List.mem_append_right _ (List.mem_append_left _ hk)
    have hbeats : ∀ k ∈ stretch.tail, k.deepNap = false := by
      cases stretch with
      | nil => simp
      | cons first rest =>
        have hchain := cycles_chain config l is
        rw [hrun] at hchain
        have hstretch := (List.isChain_append.mp (List.isChain_append.mp hchain).2.1).1
        have hcycle : ∀ k ∈ first :: rest, k = cycle config k.before k.input :=
          fun k hk => mem_cycles (hmem k hk)
        intro k hk
        have hbeat := beats_of_asleep hstretch hcycle hasleep k hk
        apply decide_eq_false
        intro hnap
        rw [hnap] at hbeat
        contradiction
    refine ⟨hbeats, ?_, ?_⟩
    · cases stretch with
      | nil => simp
      | cons first rest =>
        have hrest : rest.countP Cycle.deepNap = 0 := by
          apply List.countP_eq_zero.mpr
          intro k hk
          simp [hbeats k hk]
        rw [List.countP_cons, hrest]
        split <;> omega
    · intro k hk
      exact ⟨deepNap_enters (hmem k hk) (hasleep k hk),
        drives_of_not_deepNap (hmem k hk) (hasleep k hk)⟩

theorem touchAckBehavior_animation (event : LoopEvent) (hasPresence : Bool) (body : BodySituation) :
    (touchAckBehavior event hasPresence body).animation =
      if !hasPresence then .confused else if body.state = .sleeping then .sleepy else .excited := by
  simp only [touchAckBehavior]
  split_ifs <;> rfl

/-- The acknowledgement suits a body that is not awake when presence is known exactly of a
sleeper: a stranger puzzles a sleeper, a friend excites a body that is drowsy or waking. -/
theorem touchAck_calm_iff (event : LoopEvent) (hasPresence : Bool) (body : BodySituation) :
    (body.state ≠ .awake →
      (touchAckBehavior event hasPresence body).animation ∈ animationsForState body.state) ↔
    body.state = .awake ∨ (hasPresence = true ↔ body.state = .sleeping) := by
  rw [touchAckBehavior_animation]
  cases body.state with
  | awake => simp
  | sleeping => cases hasPresence <;> decide
  | drowsy => cases hasPresence <;> decide
  | waking => cases hasPresence <;> decide

/-- A body that fell asleep at 900. -/
def sleeper : Loop where
  body := { state := .sleeping, stateSince := 900, sleepStartedAt := 900 }

/-- A tap of an owner who is there, while the model is out of reach. -/
def tap (now : ℚ) : TickInput where
  now := now
  event := { id := str "touch-1", source := str touchSource, event := str "tap", gesture := str "tap" }
  affect := {}
  report := {
    state := .engaged, ignoredSeconds := 0, awaySeconds := 0, returnedFromAway := false,
    awayBeforeReturn := 0, focusApp := none, focusSeconds := 0, focusPressure := 0 }
  localHour := 14
  hasPresence := true
  outcome := none

/-- Two taps in a row: the second finds the body waking and is answered with excitement. -/
theorem touchAck_calm_fails :
    ¬ ∀ (event : LoopEvent) (hasPresence : Bool) (body : BodySituation),
      event.source = str touchSource → body.state ≠ .awake →
      (touchAckBehavior event hasPresence body).animation ∈ animationsForState body.state := by
  intro h
  have hack := h (tap 1010).event true
    ((tap 1010).bodyTick (tick .default sleeper (tap 1005)).1).situation rfl (by decide +kernel)
  revert hack
  decide +kernel

end Hologotchi.PetLoop
