import Hologotchi.PetLoop.Model
import Hologotchi.Contract

/-! Every step between the model and the device keeps a command valid. -/
namespace Hologotchi.PetLoop

open Python Protocol Body Inputs

variable {c : BehaviorCommand} {t : Str}

instance : Decidable (Showable t) :=
  decidable_of_iff (t ≠ [] ∧ t.length ≤ textMaxLen ∧ (∀ c ∈ t, isPrintable c = true) ∧ strip t = t)
    ⟨fun ⟨hne, hlen, hprint, hstrip⟩ => ⟨hne, hlen, hprint, hstrip⟩,
      fun h => ⟨h.ne_nil, h.length_le, h.printable, h.stripped⟩⟩

/-- Every text of a table can be shown, and it has some for a tap. -/
structure TouchTexts.Ok (options : TouchTexts) : Prop where
  showable : ∀ o ∈ options, o.2 ≠ [] ∧ ∀ t ∈ o.2, Showable t
  tap : (options.lookup (str "tap")).isSome = true

theorem touchTexts_ok : noPresenceTouchText.Ok ∧ sleepTouchText.Ok ∧ loveTouchText.Ok := by
  refine ⟨⟨?_, ?_⟩, ⟨?_, ?_⟩, ⟨?_, ?_⟩⟩
  all_goals decide

theorem mem_of_lookup {options : TouchTexts} {gesture : Str} {choices : List Str}
    (h : options.lookup gesture = some choices) : (gesture, choices) ∈ options := by
  obtain ⟨before, after, rfl, -⟩ := List.lookup_eq_some_iff.mp h
  simp

theorem touchText_showable {options : TouchTexts} (h : options.Ok) (event : LoopEvent) :
    Showable (touchText event options) := by
  obtain ⟨choices, hchoices⟩ : ∃ choices, (event.gesture.bind (List.lookup · options)).or
      (options.lookup (str "tap")) = some choices := by
    apply Option.isSome_iff_exists.mp
    rw [Option.isSome_or, h.tap, Bool.or_true]
  have hmem : ∃ gesture, (gesture, choices) ∈ options := by
    rcases Option.or_eq_some_iff.mp hchoices with hfound | ⟨-, hfound⟩
    · obtain ⟨gesture, -, hfound⟩ := Option.bind_eq_some_iff.mp hfound
      exact ⟨gesture, mem_of_lookup hfound⟩
    · exact ⟨_, mem_of_lookup hfound⟩
  obtain ⟨gesture, hmem⟩ := hmem
  obtain ⟨hne, hshow⟩ := h.showable _ hmem
  have hpos : 0 < choices.length := List.length_pos_iff.mpr hne
  have hlt : (eventIndex event.id % choices.length).toNat < choices.length := by
    have hmod := Int.emod_lt_of_pos (eventIndex event.id) (Int.natCast_pos.mpr hpos)
    have hnonneg : 0 ≤ eventIndex event.id % choices.length := Int.emod_nonneg _ (by omega)
    omega
  rw [touchText, hchoices, Option.getD_some, List.getD_eq_getElem?_getD,
    List.getElem?_eq_getElem hlt]
  exact hshow _ (List.getElem_mem hlt)

theorem touchAckBehavior_valid (event : LoopEvent) (hasPresence : Bool) (body : BodySituation) :
    (touchAckBehavior event hasPresence body).Valid := by
  obtain ⟨habsent, hsleep, hlove⟩ := touchTexts_ok
  have hduration : minDurationMs ≤ touchAckDurationMs ∧ touchAckDurationMs ≤ maxDurationMs := by
    decide
  have hack {a : Animation} {options : TouchTexts} (ha : a ≠ .alert) (h : options.Ok) :
      BehaviorCommand.Valid
        ⟨a.toMood, a, some (touchText event options), false, touchAckDurationMs⟩ := by
    apply BehaviorCommand.Valid.calm ha hduration
    intro t ht
    obtain rfl := Option.some.inj ht
    exact touchText_showable h event
  rw [touchAckBehavior]
  split_ifs
  · exact hack (by decide) habsent
  · exact hack (by decide) hsleep
  · exact hack (by decide) hlove

theorem fallbackBehavior_valid (event : LoopEvent) : (fallbackBehavior event).Valid := by
  have hlook : Showable (str "look now") := by decide
  have hpuzzled : Showable (str "???") := by decide
  rw [fallbackBehavior]
  split_ifs
  · refine ⟨rfl, rfl, by decide, ?_⟩
    intro t ht
    obtain rfl := Option.some.inj ht
    exact hlook
  · apply BehaviorCommand.Valid.calm (by decide) (by decide)
    intro t ht
    obtain rfl := Option.some.inj ht
    exact hpuzzled
  · exact ⟨rfl, rfl, by decide, by simp⟩

theorem unpackProposal_valid {event : LoopEvent} {outcome : Option BehaviorProposal}
    (h : ∀ p ∈ outcome, p.behavior.Valid) : (unpackProposal event outcome).1.Valid := by
  cases outcome with
  | none => exact fallbackBehavior_valid event
  | some p => exact h p rfl

theorem applyNovelty_valid (h : c.Valid) (state : PetState) (event : LoopEvent) :
    (applyNovelty c state event).Valid := by
  have htext : ∀ t ∈ c.text.filter (· ∉ state.recentPhrases), t ∈ c.text := by
    intro t ht
    exact (Option.mem_filter_iff.mp ht).1
  rw [applyNovelty]
  split
  · exact h.withText htext
  · split
    · rename_i animation hfind
      have hcalm : animation ≠ .alert := by
        have hfound := List.find?_some hfind
        simp only [decide_eq_true_eq] at hfound
        exact hfound.1
      apply BehaviorCommand.Valid.calm hcalm h.duration
      intro t ht
      split at ht
      · cases ht
      · exact h.text t (htext t ht)
    · exact h.withText htext

theorem alert_notMem_animationsForState (s : BodyState) : .alert ∉ animationsForState s := by
  cases s <;> decide

theorem clampAnimation_ne_alert (a : Animation) (target : BodyState) (enteredSleep : Bool) :
    clampAnimation a target enteredSleep ≠ .alert := by
  have hbeat : .alert ∉ sleepBeat := by decide
  have hstate := alert_notMem_animationsForState target
  rw [clampAnimation]
  split_ifs
  · decide
  · rintro rfl
    contradiction
  · decide
  · rintro rfl
    contradiction
  · cases target <;> decide

theorem clampBehavior_valid (h : c.Valid) (target : BodyState) (enteredSleep : Bool) :
    (clampBehavior c target enteredSleep).Valid := by
  have hcalm := clampAnimation_ne_alert c.animation target enteredSleep
  rw [clampBehavior]
  split
  · exact h
  · simp only
    split
    · exact h
    · apply BehaviorCommand.Valid.calm hcalm h.duration
      intro t ht
      split at ht
      · exact h.text t ht
      · cases ht

theorem adaptLoopBehavior_valid (h : c.Valid) (config : PetLoopConfig) :
    (adaptLoopBehavior c config).Valid := by
  obtain ⟨hmin, hmax⟩ := h.duration
  rw [adaptLoopBehavior]
  split
  · exact h.withDuration (by decide)
  · split
    · exact h
    · apply h.withDuration
      simp only [minDurationMs, maxDurationMs, idleLoopDurationMs] at hmin hmax ⊢
      omega

theorem burnInGuardrail_valid (h : c.Valid) (state : PetState) (bodyState : BodyState) (now : ℚ) :
    (burnInGuardrail c state bodyState now).1.Valid := by
  rw [burnInGuardrail]
  split_ifs
  · exact h
  · exact h
  · exact h
  · exact .calm (by decide) (by decide) (by simp)

end Hologotchi.PetLoop
