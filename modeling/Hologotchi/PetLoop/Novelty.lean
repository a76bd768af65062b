import Hologotchi.PetLoop.Model
import Hologotchi.Library.Spaced
import Hologotchi.Library.Runs

/-! No phrase comes back before five others have been shown. -/
namespace Hologotchi.PetLoop

open Python Library Protocol Body

variable {config : PetLoopConfig} {l : Loop} {i : TickInput} {c : BehaviorCommand} {t : Str}

theorem text_of_clampBehavior {target : BodyState} {enteredSleep : Bool}
    (h : t ∈ (clampBehavior c target enteredSleep).text) : t ∈ c.text := by
  unfold clampBehavior at h
  dsimp only at h
  split at h
  · exact h
  · split at h
    · exact h
    · split at h
      · exact h
      · simp at h

theorem text_adaptLoopBehavior (c : BehaviorCommand) (config : PetLoopConfig) :
    (adaptLoopBehavior c config).text = c.text := by
  unfold adaptLoopBehavior
  split
  · rfl
  · split <;> rfl

theorem text_of_burnInGuardrail {state : PetState} {bodyState : BodyState} {now : ℚ}
    (h : t ∈ (burnInGuardrail c state bodyState now).1.text) : t ∈ c.text := by
  unfold burnInGuardrail at h
  dsimp only at h
  split_ifs at h
  · exact h
  · exact h
  · exact h
  · simp at h

theorem recentPhrases_burnInGuardrail (c : BehaviorCommand) (state : PetState)
    (bodyState : BodyState) (now : ℚ) :
    (burnInGuardrail c state bodyState now).2.recentPhrases = state.recentPhrases := by
  unfold burnInGuardrail
  dsimp only
  split_ifs <;> rfl

/-- What the novelty filter lets through is not among the recent phrases. -/
theorem novel_of_applyNovelty {state : PetState} {event : LoopEvent}
    (h : t ∈ (applyNovelty c state event).text) : t ∉ state.recentPhrases := by
  have hfilter : t ∈ c.text.filter (· ∉ state.recentPhrases) → t ∉ state.recentPhrases := by
    intro ht
    simpa using (Option.mem_filter_iff.mp ht).2
  unfold applyNovelty at h
  dsimp only at h
  split at h
  · exact hfilter h
  · split at h
    · dsimp only at h
      split at h
      · simp at h
      · exact hfilter h
    · exact hfilter h

/-- The text a cycle shows, if it shows any. -/
def Sent.phrase (s : Sent) : Option Str := s.main.text.filter (· ≠ [])

/-- What a cycle does to the command and the state, whatever the body decides. -/
theorem tick_stages (config : PetLoopConfig) (l : Loop) (i : TickInput) :
    ∃ state target enteredSleep bodyState framed,
      state = { l.state with affect := i.affect } ∧
      framed = burnInGuardrail (adaptLoopBehavior (clampBehavior
        (applyNovelty (unpackProposal i.event i.outcome).1 state i.event) target enteredSleep)
        config) state bodyState i.now ∧
      (tick config l i).2.main = framed.1 ∧
      (tick config l i).1.state = framed.2.observe framed.1 :=
  ⟨_, _, _, _, _, rfl, rfl, rfl, rfl⟩

theorem tick_phrase_novel (h : t ∈ (tick config l i).2.phrase) : t ∉ l.state.recentPhrases := by
  obtain ⟨state, target, enteredSleep, bodyState, framed, hstate, hframed, hmain, -⟩ :=
    tick_stages config l i
  have htext : t ∈ framed.1.text := hmain ▸ (Option.mem_filter_iff.mp h).1
  rw [hframed] at htext
  have hadapted := text_of_burnInGuardrail htext
  rw [text_adaptLoopBehavior] at hadapted
  have hnovel := novel_of_applyNovelty (text_of_clampBehavior hadapted)
  rwa [hstate] at hnovel

/-- A phrase that was shown is remembered, and a cycle without one forgets nothing. -/
theorem tick_recentPhrases (config : PetLoopConfig) (l : Loop) (i : TickInput) :
    (tick config l i).1.state.recentPhrases =
      (tick config l i).2.phrase.elim l.state.recentPhrases
        fun text => (l.state.recentPhrases ++ [text]).rtake recentPhraseLimit := by
  obtain ⟨state, target, enteredSleep, bodyState, framed, hstate, hframed, hmain, hafter⟩ :=
    tick_stages config l i
  have hsame : framed.2.recentPhrases = l.state.recentPhrases := by
    rw [hframed, recentPhrases_burnInGuardrail, hstate]
  rw [hafter, Sent.phrase, hmain]
  simp only [PetState.observe, hsame]
  cases framed.1.text.filter (· ≠ []) <;> rfl

/-- The texts shown along a run. -/
def phrases (sent : List Sent) : List Str := sent.filterMap Sent.phrase

/-- From a fresh state and any body, any six phrases in a row that a run shows are pairwise
different, and the recent phrases are the last five of them. -/
theorem phrases_spaced (config : PetLoopConfig) (body : BodyModel) (inputs : List TickInput) :
    Spaced recentPhraseLimit (phrases (answers (tick config) { body } inputs)) ∧
      (finalState (tick config) { body } inputs).state.recentPhrases =
        (phrases (answers (tick config) { body } inputs)).rtake recentPhraseLimit ∧
      (finalState (tick config) { body } inputs).state.recentPhrases.Nodup := by
  suffices hrun : Spaced recentPhraseLimit (phrases (answers (tick config) { body } inputs)) ∧
      (finalState (tick config) { body } inputs).state.recentPhrases =
        (phrases (answers (tick config) { body } inputs)).rtake recentPhraseLimit by
    exact ⟨hrun.1, hrun.2, hrun.2 ▸ hrun.1.nodup_rtake⟩
  induction inputs using List.reverseRecOn with
  | nil => exact ⟨spaced_nil, rfl⟩
  | append_singleton inputs i ih =>
    obtain ⟨hspaced, hrecent⟩ := ih
    have hafter := tick_recentPhrases config (finalState (tick config) { body } inputs) i
    rw [answers_append, finalState_append]
    simp only [phrases, List.filterMap_append, answers_cons, answers_nil, finalState_cons,
      finalState_nil, List.filterMap_cons, List.filterMap_nil]
    cases hphrase : (tick config (finalState (tick config) { body } inputs) i).2.phrase with
    | none =>
      rw [hphrase, Option.elim_none] at hafter
      rw [List.append_nil, hafter]
      exact ⟨hspaced, hrecent⟩
    | some text =>
      have hnovel := tick_phrase_novel (Option.mem_def.mpr hphrase)
      rw [hphrase, Option.elim_some] at hafter
      rw [hrecent] at hafter hnovel
      rw [hafter]
      exact ⟨hspaced.concat hnovel, rtake_rtake_concat _ _ _⟩

end Hologotchi.PetLoop
