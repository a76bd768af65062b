import Hologotchi.Library.Transitions
import Hologotchi.Memory.Forgetting
import Hologotchi.PetLoop.Moments

/-! When a milestone of green results is celebrated only once, across restarts. -/
namespace Hologotchi.PetLoop

open Python Library Library.Fallible Library.Like Library.Table Memory

variable {e : Engine} {s t : Store} {event : LoopEvent} {now : ℚ} {m : Moment}

/-- A loop on a memory store, with the totals it has announced. -/
structure Session where
  moments : MomentState := {}
  store : Store
  announced : List ℕ := []

def SpecialMoment.total : SpecialMoment → List ℕ
  | .milestone total => [total]
  | _ => []

/-- What the loop does with a build or test result, up to the special moment. -/
def Session.handle (e : Engine) (s : Session) (event : LoopEvent) (now : ℚ) (clock : ℕ → ℚ)
    (day : Str) (hour : ℤ) : Except Error Session := do
  let (_, captured) ← s.store.capture e now (resultMoment event)
  let (_, store) ← captured.consolidateMemory e clock
  let (moments, special) ← recordSpecialMoment s.moments event day hour (some store)
  .ok ⟨moments, store, s.announced ++ (special.toList.flatMap SpecialMoment.total)⟩

inductive Happening
  | result (event : LoopEvent) (now : ℚ) (clock : ℕ → ℚ) (day : Str) (hour : ℤ)
  /-- The loop starts again with a fresh `PetState`. -/
  | restart
  /-- Any other call on the store, which deletes nothing. -/
  | call (call : Call)

inductive Step (e : Engine) : Session → Happening → Session → Prop
  | result {s t : Session} {event : LoopEvent} {now : ℚ} {clock : ℕ → ℚ} {day : Str} {hour : ℤ}
      (source : event.source ∈ resultSources) (handled : s.handle e event now clock day hour = .ok t) :
      Step e s (.result event now clock day hour) t
  | restart (s : Session) : Step e s .restart { s with moments := {} }
  | call (s : Session) {call : Call} (keeps : ¬ call.Deletes) :
      Step e s (.call call) { s with store := (perform e s.store call).1 }

/-- `tags LIKE '% pass %'`. -/
def passed (row : Row) : Bool := like (within (32 :: str "pass" ++ [32])) row.tags

def storedGreens (s : Store) : ℕ := count passed s.rows

/-- The total of the last green result, as far as this session and the store know it. -/
def Session.total (s : Session) : ℕ := max s.moments.greenBuildTotal (storedGreens s.store)

/-- The capture stores a row: nothing like it was stored lately. -/
def StoresNew (e : Engine) (s : Store) (m : Moment) (now : ℚ) : Prop :=
  s.writesEnabled = true ∧ cleanSummary m.summary ≠ [] ∧
    s.findRecentDuplicate e m.source (cleanSummary m.summary) now = none

/-- A green result is stored, or the session has counted at least as many as are stored, or the
stored number is no milestone. A restart loses no milestone that the session alone had counted. -/
def Advances (e : Engine) (s : Session) : Happening → Prop
  | .result event now _ _ _ =>
    isFailure event.event = true ∨ StoresNew e s.store (resultMoment event) now ∨
      storedGreens s.store ≤ s.moments.greenBuildTotal ∨ isMilestone (storedGreens s.store) = false
  | .restart => ∀ total, isMilestone total = true → storedGreens s.store < total →
    s.moments.greenBuildTotal < total
  | .call _ => True

theorem countBy_pass : s.countBy { tag := some (str "pass") } = .ok (storedGreens s) := by
  have hnormal : normalizeTag (str "pass") = str "pass" := by decide +kernel
  have husable : normalizeTag (str "pass") ≠ [] := by decide +kernel
  have hcondition := countCondition_tag husable
  rw [hnormal] at hcondition
  simp only [Store.countBy, hcondition]
  rfl

theorem storedGreens_markRecalled (ids : List ℕ) :
    storedGreens (s.markRecalled ids now) = storedGreens s :=
  count_update fun _ => rfl

theorem storedGreens_capture {memoryId : Option ℕ} (h : s.capture e now m = .ok (memoryId, t)) :
    storedGreens s ≤ storedGreens t := by
  rcases capture_ok h with rfl | ⟨row, -, rfl⟩ | ⟨kind, -, -, -, rfl⟩
  · exact le_refl _
  · exact (count_bumpExisting fun _ _ => rfl).ge
  · rw [storedGreens, storedGreens, Store.insert, count_insert]
    exact Nat.le_add_right _ _

theorem storedGreens_consolidate {clock : ℕ → ℚ} {n : ℕ}
    (h : s.consolidateMemory e clock = .ok (n, t)) : storedGreens s ≤ storedGreens t :=
  consolidate_keeps (P := fun u => storedGreens s ≤ storedGreens u)
    (fun hle hcapture => hle.trans (storedGreens_capture hcapture)) h (le_refl _)

theorem storedGreens_perform {call : Call} (h : ¬ call.Deletes) :
    storedGreens s ≤ storedGreens (perform e s call).1 :=
  perform_keeps (P := fun u => storedGreens s ≤ storedGreens u)
    (fun hle => hle.trans_eq (storedGreens_markRecalled _).symm)
    (fun hle hcapture => hle.trans (storedGreens_capture hcapture)) (fun _ => id)
    (fun hdeletes => absurd hdeletes h) (le_refl _)

/-- A green result is salient enough to be stored. -/
theorem green_salient (h : isFailure event.event = false) :
    importanceThreshold ≤ s.importanceOf (resultMoment event) := by
  have hfirst : importanceThreshold ≤ score (clampSigned 50) (clampUnsigned 55) false false 1 0 := by
    decide +kernel
  simp only [Store.importanceOf, resultMoment, h]
  exact hfirst.trans (score_ge _ _ _ _ _ _)

/-- Its row is counted as one. -/
theorem passed_green {kind : Kind} (hsource : event.source ∈ resultSources)
    (h : isFailure event.event = false) :
    passed (s.newRow (resultMoment event) kind now) = true := by
  have hlabels : ∀ source ∈ resultSources, like (within (32 :: str "pass" ++ [32]))
      (encodeTags (some [source.takeWhile (· ≠ 95), str "pass"])) = true := by
    decide +kernel
  have htags := hlabels event.source hsource
  simp only [passed, Store.newRow, resultMoment, h]
  exact htags

/-- A green result that is no duplicate adds one to the stored greens. -/
theorem storedGreens_new {memoryId : Option ℕ} (hsource : event.source ∈ resultSources)
    (hgreen : isFailure event.event = false) (hnew : StoresNew e s (resultMoment event) now)
    (h : s.capture e now (resultMoment event) = .ok (memoryId, t)) :
    storedGreens t = storedGreens s + 1 := by
  obtain ⟨hwrites, hsummary, hdup⟩ := hnew
  obtain ⟨kind, rfl⟩ := capture_stores hwrites hsummary hdup (green_salient hgreen) h
  rw [storedGreens, storedGreens, Store.insert, count_insert, passed_green hsource hgreen]
  rfl

/-- The special moment of a result on a store. -/
theorem recordSpecialMoment_result {state moments : MomentState} {special : Option SpecialMoment}
    {day : Str} {hour : ℤ} (hsource : event.source ∈ resultSources)
    (h : recordSpecialMoment state event day hour (some s) = .ok (moments, special)) :
    isFailure event.event = true ∧ moments.greenBuildTotal = state.greenBuildTotal ∧
        special.toList.flatMap SpecialMoment.total = [] ∨
      isFailure event.event = false ∧ moments.greenBuildTotal = state.greenBuildTotal + 1 ∧
        special.toList.flatMap SpecialMoment.total =
          if isMilestone (max (state.greenBuildTotal + 1) (storedGreens s)) then
            [max (state.greenBuildTotal + 1) (storedGreens s)]
          else [] := by
  have hmessage : event.source ≠ str "direct_message" := by
    rintro heq
    rw [heq] at hsource
    revert hsource
    decide
  simp only [recordSpecialMoment, if_neg hmessage, if_pos hsource] at h
  cases hfailure : isFailure event.event with
  | true =>
    left
    simp only [hfailure, if_true, Except.ok.injEq, Prod.mk.injEq] at h
    obtain ⟨rfl, rfl⟩ := h
    refine ⟨rfl, rfl, ?_⟩
    split <;> rfl
  | false =>
    right
    simp only [hfailure, Bool.false_eq_true, if_false, greenResultTotal, countBy_pass] at h
    obtain ⟨rfl, rfl⟩ := (Prod.mk.injEq ..).mp (Except.ok.inj h)
    refine ⟨rfl, rfl, ?_⟩
    split
    · rfl
    · split <;> rfl

/-- What was announced is increasing, and the sessions to come start above it. -/
structure Ordered (s : Session) : Prop where
  increasing : s.announced.Pairwise (· < ·)
  reached : ∀ total ∈ s.announced, total ≤ s.total
  milestones : ∀ total ∈ s.announced, isMilestone total = true

variable {u v : Session} {happening : Happening}

/-- A step that announces nothing and forgets no total. -/
theorem Ordered.quiet (h : Ordered u) (hsame : v.announced = u.announced)
    (hle : u.total ≤ v.total) : Ordered v where
  increasing := hsame ▸ h.increasing
  reached total htotal := (h.reached total (hsame ▸ htotal)).trans hle
  milestones total htotal := h.milestones total (hsame ▸ htotal)

/-- A step that announces a milestone above the total before it. -/
theorem Ordered.announce (h : Ordered u) {total : ℕ}
    (hannounced : v.announced = u.announced ++ [total]) (hless : u.total < total)
    (hle : total ≤ v.total) (hmilestone : isMilestone total = true) : Ordered v where
  increasing := by
    rw [hannounced]
    refine List.pairwise_append.mpr ⟨h.increasing, List.pairwise_singleton _ _, ?_⟩
    intro earlier hearlier last hlast
    rw [List.mem_singleton.mp hlast]
    exact (h.reached earlier hearlier).trans_lt hless
  reached := by
    rw [hannounced]
    intro earlier hearlier
    rcases List.mem_append.mp hearlier with hearlier | hlast
    · exact ((h.reached earlier hearlier).trans hless.le).trans hle
    · exact List.mem_singleton.mp hlast ▸ hle
  milestones := by
    rw [hannounced]
    intro earlier hearlier
    rcases List.mem_append.mp hearlier with hearlier | hlast
    · exact h.milestones earlier hearlier
    · exact List.mem_singleton.mp hlast ▸ hmilestone

/-- A green result that reaches a milestone takes the total further. -/
theorem total_lt_milestone {clock : ℕ → ℚ} {day : Str} {hour : ℤ} {memoryId : Option ℕ}
    {captured store : Store} (hsource : event.source ∈ resultSources)
    (hgreen : isFailure event.event = false)
    (hadvances : Advances e u (.result event now clock day hour))
    (hcapture : u.store.capture e now (resultMoment event) = .ok (memoryId, captured))
    (hkeeps : storedGreens captured ≤ storedGreens store)
    (hmilestone : isMilestone (max (u.moments.greenBuildTotal + 1) (storedGreens store)) = true) :
    u.total < max (u.moments.greenBuildTotal + 1) (storedGreens store) := by
  have hcaptured := storedGreens_capture hcapture
  simp only [Session.total]
  rcases hadvances with hfailure | hnew | hahead | hno
  · rw [hgreen] at hfailure
    cases hfailure
  · have hone := storedGreens_new hsource hgreen hnew hcapture
    omega
  · omega
  · -- The total stands still only at the stored number, which is no milestone.
    have hmoved : max (u.moments.greenBuildTotal + 1) (storedGreens store) ≠
        storedGreens u.store := by
      intro heq
      rw [heq, hno] at hmilestone
      cases hmilestone
    omega

theorem Ordered.result (h : Ordered u) {clock : ℕ → ℚ} {day : Str} {hour : ℤ}
    (hsource : event.source ∈ resultSources)
    (hadvances : Advances e u (.result event now clock day hour))
    (hhandled : u.handle e event now clock day hour = .ok v) : Ordered v := by
  obtain ⟨⟨memoryId, captured⟩, hcapture, hrest⟩ := bind_eq_ok.mp hhandled
  obtain ⟨⟨created, store⟩, hconsolidate, hrest⟩ := bind_eq_ok.mp hrest
  obtain ⟨⟨moments, special⟩, hspecial, hrest⟩ := bind_eq_ok.mp hrest
  have hcaptured := storedGreens_capture hcapture
  have hconsolidated := storedGreens_consolidate hconsolidate
  cases hrest
  rcases recordSpecialMoment_result hsource hspecial with
    ⟨hfailure, hcount, hnone⟩ | ⟨hgreen, hcount, hannounced⟩
  · apply h.quiet (by simp [hnone])
    simp only [Session.total, hcount]
    omega
  · by_cases hmilestone : isMilestone (max (u.moments.greenBuildTotal + 1) (storedGreens store))
    · have hless := total_lt_milestone hsource hgreen hadvances hcapture hconsolidated hmilestone
      rw [if_pos hmilestone] at hannounced
      exact h.announce (congrArg _ hannounced) hless (by simp only [Session.total, hcount, le_refl])
        hmilestone
    · rw [if_neg hmilestone] at hannounced
      apply h.quiet (by simp [hannounced])
      simp only [Session.total, hcount]
      omega

theorem Ordered.step (h : Ordered u) (hadvances : Advances e u happening)
    (hstep : Step e u happening v) : Ordered v := by
  cases hstep with
  | result source handled => exact h.result source hadvances handled
  | restart =>
    refine ⟨h.increasing, fun total htotal => ?_, h.milestones⟩
    have hreached := h.reached total htotal
    have hlost := hadvances total (h.milestones total htotal)
    simp only [Session.total] at hreached ⊢
    omega
  | call keeps =>
    rename_i call
    have hle := storedGreens_perform (e := e) (s := u.store) keeps
    have htotal : u.total ≤ ({ u with store := (perform e u.store call).1 } : Session).total := by
      simp only [Session.total]
      omega
    exact h.quiet rfl htotal

def greenBuild (text : String) : LoopEvent where
  id := str "build-1"
  source := str "build_result"
  event := str text

def Session.afterGreen (s : Session) (text : String) (now : ℚ) : Session :=
  (s.handle (.stable fun _ => 1) (greenBuild text) now (fun _ => now) (str "2026-01-01")
    12).toOption.getD s

/-- Nothing is raised by a green build. -/
def Session.handlesGreen (s : Session) (text : String) (now : ℚ) : Bool :=
  (s.handle (.stable fun _ => 1) (greenBuild text) now (fun _ => now) (str "2026-01-01") 12).isOk

theorem Session.step_afterGreen {text : String} {now : ℚ} (h : u.handlesGreen text now = true) :
    Step (.stable fun _ => 1) u (.result (greenBuild text) now (fun _ => now) (str "2026-01-01") 12)
      (u.afterGreen text now) := by
  obtain ⟨v, hv⟩ := exists_of_isOk h
  have hafter : u.afterGreen text now = v := by simp [Session.afterGreen, hv, Except.toOption]
  rw [hafter]
  exact .result (.head _) hv

/-- The sessions after each of three green builds. -/
def firstGreen : Session := (⟨{}, {}, []⟩ : Session).afterGreen "Build passed. parser" 1
def secondGreen : Session := firstGreen.afterGreen "Build passed. lexer" 2
def thirdGreen : Session := secondGreen.afterGreen "Build passed. linker" 3

/-- The third of them, after a restart. -/
def restarted : Session := { thirdGreen with moments := {} }

/-- Three green builds, a restart, and one more. -/
def fourGreens (text : String) : List (Happening × Session) :=
  [(.result (greenBuild "Build passed. parser") 1 (fun _ => 1) (str "2026-01-01") 12, firstGreen),
    (.result (greenBuild "Build passed. lexer") 2 (fun _ => 2) (str "2026-01-01") 12, secondGreen),
    (.result (greenBuild "Build passed. linker") 3 (fun _ => 3) (str "2026-01-01") 12, thirdGreen),
    (.restart, restarted),
    (.result (greenBuild text) 4 (fun _ => 4) (str "2026-01-01") 12, restarted.afterGreen text 4)]

theorem greens_handled : (⟨{}, {}, []⟩ : Session).handlesGreen "Build passed. parser" 1 = true ∧
    firstGreen.handlesGreen "Build passed. lexer" 2 = true ∧
    secondGreen.handlesGreen "Build passed. linker" 3 = true := by
  decide +kernel

theorem fourGreens_trace {text : String} (h : restarted.handlesGreen text 4 = true) :
    Trace (Step (.stable fun _ => 1)) ⟨{}, {}, []⟩ (fourGreens text)
      (restarted.afterGreen text 4) := by
  obtain ⟨hfirst, hsecond, hthird⟩ := greens_handled
  exact .cons (Session.step_afterGreen hfirst) <| .cons (Session.step_afterGreen hsecond) <|
    .cons (Session.step_afterGreen hthird) <| .cons (.restart _) <|
    .cons (Session.step_afterGreen h) (.nil _)

/-- In every run of results, restarts and other calls that delete nothing, whose steps all meet
the condition, the totals announced are strictly increasing. -/
theorem milestones_increase (e : Engine) (moments : MomentState) (store : Store)
    (run : List (Happening × Session)) (t : Session)
    (h : Trace (Step e) ⟨moments, store, []⟩ run t)
    (hmeets : Along (Advances e) ⟨moments, store, []⟩ run) :
    Throughout (fun s => s.announced.Pairwise (· < ·)) ⟨moments, store, []⟩ run := by
  have hstart : Ordered ⟨moments, store, []⟩ := ⟨.nil, by simp, by simp⟩
  have hall := h.throughout_of_along (fun hordered hadvances hstep => hordered.step hadvances hstep)
    hstart hmeets
  exact hall.mono fun _ hordered => hordered.increasing

/-- A fourth build with a text of its own is no third one. -/
theorem milestones_increase_fourGreens :
    Throughout (fun s => s.announced.Pairwise (· < ·)) ⟨{}, {}, []⟩
      (fourGreens "Build passed. loader") := by
  have hcounts : storedGreens firstGreen.store ≤ firstGreen.moments.greenBuildTotal ∧
      storedGreens secondGreen.store ≤ secondGreen.moments.greenBuildTotal ∧
      storedGreens thirdGreen.store = 3 ∧ thirdGreen.moments.greenBuildTotal = 3 := by
    decide +kernel
  obtain ⟨hfirst, hsecond, hstored, hcounted⟩ := hcounts
  have hfourth : restarted.handlesGreen "Build passed. loader" 4 = true ∧
      restarted.store.writesEnabled = true ∧
      cleanSummary (resultMoment (greenBuild "Build passed. loader")).summary ≠ [] ∧
      restarted.store.findRecentDuplicate (.stable fun _ => 1)
        (resultMoment (greenBuild "Build passed. loader")).source
        (cleanSummary (resultMoment (greenBuild "Build passed. loader")).summary) 4 = none := by
    decide +kernel
  obtain ⟨hhandled, hnew⟩ := hfourth
  have hmeets : Along (Advances (.stable fun _ => 1)) ⟨{}, {}, []⟩
      (fourGreens "Build passed. loader") := by
    refine ⟨.inr (.inr (.inl (Nat.le_refl 0))), .inr (.inr (.inl hfirst)),
      .inr (.inr (.inl hsecond)), ?_, .inr (.inl hnew), trivial⟩
    intro total _ hless
    omega
  exact milestones_increase (.stable fun _ => 1) {} {} _ _ (fourGreens_trace hhandled) hmeets

/-- A fourth build after a restart with the text of the third is celebrated as the third again. -/
theorem milestone_celebrated_twice :
    ∃ t, Trace (Step (.stable fun _ => 1)) ⟨{}, {}, []⟩ (fourGreens "Build passed. linker") t ∧
      ¬ t.announced.Pairwise (· < ·) := by
  have htwice : restarted.handlesGreen "Build passed. linker" 4 = true ∧
      (restarted.afterGreen "Build passed. linker" 4).announced = [3, 3] := by
    decide +kernel
  refine ⟨_, fourGreens_trace htwice.1, ?_⟩
  simp [htwice.2]

end Hologotchi.PetLoop
