import Hologotchi.PetLoop.Coherence
import Hologotchi.Library.Stretches
import Mathlib.Tactic.Linarith

/-! No static pose is shown for long: the burn-in timer against the frames of a run. -/
namespace Hologotchi.PetLoop

open Python Library Protocol Presence Body Inputs

/-- What the guardrail is given for one frame. -/
structure GuardInput where
  now : ℚ
  behavior : BehaviorCommand
  bodyState : BodyState

/-- A main frame as it was shown. -/
structure Shown where
  now : ℚ
  command : BehaviorCommand
  deriving DecidableEq

def Shown.animation (f : Shown) : Animation := f.command.animation

/-- Guard a frame, show it and observe it. -/
def guardStep (state : PetState) (i : GuardInput) : PetState × Shown :=
  let (behavior, state) := burnInGuardrail i.behavior state i.bodyState i.now
  (state.observe behavior, ⟨i.now, behavior⟩)

/-- The first frame of the stretch of `a` at the end of the frames. -/
def heldSince (a : Animation) (frames : List Shown) : Option Shown :=
  Stretches.start (fun f => f.animation = a) frames

/-- The state agrees with the frames shown so far: while a static pose is held, the timer is the
time of its first frame. -/
structure Timed (past : List Shown) (state : PetState) : Prop where
  recent : state.recentAnimations.getLast? = past.getLast?.map Shown.animation
  timer : ∀ a ∈ staticAnimations, ∀ f, heldSince a past = some f →
    0 < f.now ∧ state.lastMicromotionAt = f.now

/-- The pose of this frame, if it is static, has not been held too long. -/
def HeldBriefly (past : List Shown) (f : Shown) : Prop :=
  ∀ a ∈ staticAnimations, ∀ g, heldSince a (past ++ [f]) = some g →
    f.now - g.now < burnInIntervalSeconds

variable {past : List Shown} {state : PetState} {c : BehaviorCommand} {s : BodyState} {now : ℚ}
  {a : Animation}

/-- A static frame comes through unchanged: a new pose restarts the timer, and a pose shown
before needs a timer that is not yet due. -/
theorem burnInGuardrail_static
    (h : (burnInGuardrail c state s now).1.animation ∈ staticAnimations) :
    (burnInGuardrail c state s now).1 = c ∧
      ((state.recentAnimations.getLast? ≠ some c.animation ∧
          (burnInGuardrail c state s now).2.lastMicromotionAt = now) ∨
        (state.recentAnimations.getLast? = some c.animation ∧
          (state.lastMicromotionAt ≤ 0 ∨
            (now - state.lastMicromotionAt < burnInIntervalSeconds ∧
              (burnInGuardrail c state s now).2.lastMicromotionAt =
                state.lastMicromotionAt)))) := by
  simp only [burnInGuardrail] at h ⊢
  split_ifs at h ⊢ with hrestart hfresh hearly
  · refine ⟨rfl, .inl ⟨?_, rfl⟩⟩
    rcases hrestart with hmoving | hchanged
    · exact absurd (.inr (.inr h)) hmoving
    · exact hchanged
  · exact ⟨rfl, .inr ⟨not_not.mp (not_or.mp hrestart).2, .inl hfresh⟩⟩
  · exact ⟨rfl, .inr ⟨not_not.mp (not_or.mp hrestart).2, .inr ⟨hearly, rfl⟩⟩⟩
  · have hblink : Animation.blink ∉ staticAnimations := by decide
    exact absurd h hblink

theorem getLast?_observe (state : PetState) (c : BehaviorCommand) :
    (state.observe c).recentAnimations.getLast? = some c.animation := by
  rw [observe_recentAnimations, recentAnimationLimit, List.rtake_concat_succ]
  simp

theorem timed_fresh : Timed [] {} where
  recent := rfl
  timer := by
    intro a _ f hf
    cases hf

theorem Timed.heldSince_isSome (h : Timed past state) :
    (heldSince a past).isSome ↔ state.recentAnimations.getLast? = some a := by
  rw [h.recent]
  simp [heldSince, Stretches.isSome_start]

/-- A frame that goes on with a static pose leaves the timer at the first frame of the pose, and
comes before it is due; one that begins the pose sets it. -/
theorem Timed.timer_guard (h : Timed past state) (hnow : 0 < now)
    (hpose : (burnInGuardrail c state s now).1.animation = a) (ha : a ∈ staticAnimations) :
    ∃ f, heldSince a (past ++ [⟨now, (burnInGuardrail c state s now).1⟩]) = some f ∧ 0 < f.now ∧
      (burnInGuardrail c state s now).2.lastMicromotionAt = f.now ∧
      now - f.now < burnInIntervalSeconds := by
  obtain ⟨hsame, hcases⟩ := burnInGuardrail_static (hpose ▸ ha)
  rw [hsame] at hpose ⊢
  have hposed := decide_eq_true (p := (⟨now, c⟩ : Shown).animation = a) hpose
  rcases Stretches.start_append_cases (p := fun f : Shown => f.animation = a) (l := past)
    hposed with ⟨f, hf, hafter⟩ | ⟨hother, hafter⟩
  · -- The pose was shown before: the timer is at its first frame.
    obtain ⟨hpos, htimer⟩ := h.timer a ha f hf
    have hlast := h.heldSince_isSome.mp (Option.isSome_of_mem hf)
    refine ⟨f, hafter, hpos, ?_⟩
    rcases hcases with ⟨hchanged, -⟩ | ⟨-, hzero | ⟨hearly, hkept⟩⟩
    · exact absurd (hpose ▸ hlast) hchanged
    · linarith
    · exact ⟨hkept.trans htimer, htimer ▸ hearly⟩
  · -- The pose begins here.
    have hchanged : state.recentAnimations.getLast? ≠ some a := by
      intro hlast
      rw [h.recent] at hlast
      obtain ⟨g, hg, hsameg⟩ := Option.map_eq_some_iff.mp hlast
      exact hother g hg (decide_eq_true hsameg)
    refine ⟨⟨now, c⟩, hafter, hnow, ?_⟩
    rcases hcases with ⟨-, hset⟩ | ⟨hlast, -⟩
    · exact ⟨hset, by norm_num [burnInIntervalSeconds]⟩
    · exact absurd (hpose ▸ hlast) hchanged

theorem Timed.guard (h : Timed past state) (hnow : 0 < now) (c : BehaviorCommand) (s : BodyState) :
    Timed (past ++ [⟨now, (burnInGuardrail c state s now).1⟩])
        ((burnInGuardrail c state s now).2.observe (burnInGuardrail c state s now).1) ∧
      HeldBriefly past ⟨now, (burnInGuardrail c state s now).1⟩ := by
  have hstatic : ∀ a ∈ staticAnimations, ∀ f,
      heldSince a (past ++ [⟨now, (burnInGuardrail c state s now).1⟩]) = some f →
      0 < f.now ∧ (burnInGuardrail c state s now).2.lastMicromotionAt = f.now ∧
        now - f.now < burnInIntervalSeconds := by
    intro a ha f hf
    by_cases hpose : (burnInGuardrail c state s now).1.animation = a
    · obtain ⟨g, hg, hheld⟩ := h.timer_guard hnow hpose ha
      obtain rfl : g = f := Option.some.inj (hg.symm.trans hf)
      exact hheld
    · have hnone : heldSince a (past ++ [⟨now, (burnInGuardrail c state s now).1⟩]) = none :=
        Stretches.start_append_of_not (by simp [Shown.animation, hpose])
      rw [hnone] at hf
      cases hf
  refine ⟨⟨?_, ?_⟩, ?_⟩
  · rw [getLast?_observe]
    simp [Shown.animation]
  · intro a ha f hf
    obtain ⟨hpos, htimer, -⟩ := hstatic a ha f hf
    exact ⟨hpos, htimer⟩
  · intro a ha f hf
    exact (hstatic a ha f hf).2.2

variable {frames before stretch after : List Shown} {first last : Shown} {config : PetLoopConfig}

/-- A stretch of one static pose ends before its first frame, or an earlier one of the same pose,
is due. -/
theorem stretch_brief
    (hbrief : ∀ past f later, frames = past ++ f :: later → HeldBriefly past f)
    (hmono : (frames.map Shown.now).Pairwise (· ≤ ·)) (ha : a ∈ staticAnimations)
    (hframes : frames = before ++ stretch ++ after) (hsame : ∀ f ∈ stretch, f.animation = a)
    (hfirst : first ∈ stretch.head?) (hlast : last ∈ stretch.getLast?) :
    last.now - first.now < burnInIntervalSeconds := by
  have hposed : ∀ f ∈ stretch, decide (f.animation = a) = true := fun f hf =>
    decide_eq_true (hsame f hf)
  obtain ⟨g, hg, hearlier⟩ := Stretches.start_of_suffix (l := before) hposed hfirst
  have hinit : before ++ stretch = (before ++ stretch.dropLast) ++ [last] := by
    rw [List.append_assoc, List.dropLast_append_getLast? last hlast]
  have hsplit : frames = (before ++ stretch.dropLast) ++ last :: after := by
    rw [hframes, hinit]
    simp
  have hheld := hbrief _ _ _ hsplit a ha g (hinit ▸ hg)
  have hle : g.now ≤ first.now := by
    rcases hearlier with rfl | hg
    · exact le_rfl
    · rw [hframes, List.append_assoc, List.map_append] at hmono
      obtain ⟨-, -, hcross⟩ := List.pairwise_append.mp hmono
      have hmem : first ∈ stretch ++ after :=
        List.mem_append_left _ (List.mem_of_head? hfirst)
      exact hcross g.now (List.mem_map_of_mem hg) first.now (List.mem_map_of_mem hmem)
  linarith

theorem guardStep_times (state : PetState) (inputs : List GuardInput) :
    (answers guardStep state inputs).map Shown.now = inputs.map GuardInput.now := by
  induction inputs generalizing state with
  | nil => rfl
  | cons i inputs ih => exact congrArg (i.now :: ·) (ih _)

/-- From a fresh state, frames of one static pose in a row span less than the burn-in interval. -/
theorem static_pose_bounded (inputs : List GuardInput) (hpos : ∀ i ∈ inputs, 0 < i.now)
    (hmono : (inputs.map GuardInput.now).Pairwise (· ≤ ·)) (before stretch after : List Shown)
    (hframes : answers guardStep {} inputs = before ++ stretch ++ after) (a : Animation)
    (ha : a ∈ staticAnimations) (hsame : ∀ f ∈ stretch, f.animation = a) (first last : Shown)
    (hfirst : first ∈ stretch.head?) (hlast : last ∈ stretch.getLast?) :
    last.now - first.now < burnInIntervalSeconds := by
  refine stretch_brief ?_ ?_ ha hframes hsame hfirst hlast
  · intro past f later hsplit
    have hmet : Meets guardStep (fun _ i => 0 < i.now) {} inputs :=
      meets_of_forall (fun i hi _ => hpos i hi) _
    refine answers_induction (J := Timed) (P := HeldBriefly) ?_ timed_fresh hmet hsplit
    intro past state i h hnow
    exact h.guard hnow i.behavior i.bodyState
  · rw [guardStep_times]
    exact hmono

def napAt (now : ℚ) : GuardInput where
  now := now
  behavior := ⟨.sleepy, .nap, none, false, 5000⟩
  bodyState := .sleeping

def napShown (now : ℚ) : Shown := ⟨now, (napAt now).behavior⟩

/-- A nap from 100 on is still shown at 249, and flickers at 250. -/
theorem static_pose_bounded_nap : (249 : ℚ) - 100 < burnInIntervalSeconds :=
  static_pose_bounded [napAt 100, napAt 249, napAt 250] (by decide) (by decide) []
    [napShown 100, napShown 249] [⟨250, ⟨Animation.blink.toMood, .blink, none, false, 1500⟩⟩]
    (by decide +kernel) .nap (by decide) (by decide) (napShown 100) (napShown 249) rfl rfl

/-- A cycle of the loop and the main frame it shows. -/
def shownStep (config : PetLoopConfig) (l : Loop) (i : TickInput) : Loop × Shown :=
  ((tick config l i).1, ⟨i.now, (tick config l i).2.main⟩)

theorem shownStep_times (config : PetLoopConfig) (l : Loop) (inputs : List TickInput) :
    (answers (shownStep config) l inputs).map Shown.now = inputs.map TickInput.now := by
  induction inputs generalizing l with
  | nil => rfl
  | cons i inputs ih => exact congrArg (i.now :: ·) (ih _)

/-- The main frames of the loop itself: whatever it is told and whatever body it starts with, it
holds no static pose for longer. -/
theorem loop_static_pose_bounded (body : BodyModel) {inputs : List TickInput}
    (hpos : ∀ i ∈ inputs, 0 < i.now) (hmono : (inputs.map TickInput.now).Pairwise (· ≤ ·))
    (hframes : answers (shownStep config) { body } inputs = before ++ stretch ++ after)
    (ha : a ∈ staticAnimations) (hsame : ∀ f ∈ stretch, f.animation = a)
    (hfirst : first ∈ stretch.head?) (hlast : last ∈ stretch.getLast?) :
    last.now - first.now < burnInIntervalSeconds := by
  refine stretch_brief ?_ ?_ ha hframes hsame hfirst hlast
  · intro past f later hsplit
    have hmet : Meets (shownStep config) (fun _ i => 0 < i.now) { body } inputs :=
      meets_of_forall (fun i hi _ => hpos i hi) _
    have hfresh : Timed [] ({ body } : Loop).state := timed_fresh
    refine answers_induction (J := fun past l => Timed past l.state) (P := HeldBriefly) ?_ hfresh
      hmet hsplit
    intro past l i h hnow
    have htold : Timed past { l.state with affect := i.affect } := ⟨h.recent, h.timer⟩
    simp only [shownStep, tick_state, tick_main]
    exact htold.guard hnow _ _
  · rw [shownStep_times]
    exact hmono

end Hologotchi.PetLoop
