import Hologotchi.Touch.Refinement
import Hologotchi.Touch.Glitches

/-! When a long press is reported, and when it is lost in the drained phase. -/
namespace Hologotchi.Touch

variable {c : TouchClassifier} {n : ℕ} {pressed : Bool} {now : ℕ} {d u : Mark} {g : Gesture}
  {samples : List (Bool × ℕ)}

/-- The phases of a press that is still down. -/
def Phase.held : Phase → Prop
  | .firstDown _ | .drainRelease => True
  | .idle | .waitSecond _ => False

/-- The phase machine believes a press is down only while the debounced level is. -/
def Grounded (c : TouchClassifier) : Prop := c.phase.held → c.stableLevel = true

theorem update_phase (c : TouchClassifier) (n : ℕ) (pressed : Bool) (now : ℕ) :
    (c.update pressed now).1.phase =
      (c.phase.next ⟨n, now, (c.debounce pressed now).2⟩).1 :=
  (update_handles c n pressed now).1

theorem grounded_step (hi : c.initialized = true) (h : Grounded c) :
    Grounded (c.update pressed now).1 := by
  have hphase := update_phase c 0 pressed now
  have hstable := (update_level c pressed now).2
  have hlevel := debounce_level hi pressed now
  intro hheld
  rw [hphase] at hheld
  rw [hstable]
  cases he : (c.debounce pressed now).2 with
  | none =>
    simp only [he] at hlevel hheld
    rw [hlevel]
    apply h
    cases hp : c.phase with
    | waitSecond r =>
      simp only [hp, Phase.next] at hheld
      split at hheld <;> simp [Phase.held] at hheld
    | _ => simp_all [Phase.next, Phase.held]
  | some e =>
    cases e with
    | down => simp_all
    | up =>
      cases hp : c.phase with
      | firstDown s =>
        simp only [hp, he, Phase.next] at hheld
        split at hheld <;> simp [Phase.held] at hheld
      | _ => simp_all [Phase.next, Phase.held]

/-- Reports of later samples carry later positions. -/
theorem reportsFrom_index {e : Mark × Gesture} (h : e ∈ reportsFrom n c samples) :
    n ≤ e.1.index := by
  induction samples generalizing n c with
  | nil => simp [reportsFrom] at h
  | cons sample rest ih =>
    rcases List.mem_append.mp h with h | h
    · obtain ⟨g, -, rfl⟩ := by simpa using h
      exact Nat.le_refl n
    · have := ih h
      omega

theorem update_of_down (he : (c.debounce pressed now).2 = some .down) :
    c.update pressed now = (c.debounce pressed now).1.onPress now := by
  unfold TouchClassifier.update
  generalize c.debounce pressed now = r at he ⊢
  obtain ⟨c, edge⟩ := r
  cases he
  rfl

theorem update_of_up (he : (c.debounce pressed now).2 = some .up) :
    c.update pressed now = (c.debounce pressed now).1.onRelease now := by
  unfold TouchClassifier.update
  generalize c.debounce pressed now = r at he ⊢
  obtain ⟨c, edge⟩ := r
  cases he
  rfl

/-- The report at the first sample of the rest is the answer to it. -/
theorem mem_reportsFrom_head {e : Option Edge} (he : (c.debounce pressed now).2 = e) :
    (⟨n, now, e⟩, g) ∈ reportsFrom n c ((pressed, now) :: samples) ↔
      (c.update pressed now).2 = some g := by
  subst he
  constructor
  · intro h
    rcases List.mem_append.mp h with h | h
    · simpa using h
    · have := reportsFrom_index h
      simp only at this
      omega
  · intro h
    exact List.mem_append_left _ (by simp [h])

/-- The reports at later samples are those of the rest. -/
theorem mem_reportsFrom_later {m : Mark} (hm : n < m.index) :
    (m, g) ∈ reportsFrom n c ((pressed, now) :: samples) ↔
      (m, g) ∈ reportsFrom (n + 1) (c.update pressed now).1 samples := by
  constructor
  · intro h
    rcases List.mem_append.mp h with h | h
    · obtain ⟨_, _, hmark, _⟩ := by simpa using h
      simp at hm
    · exact h
  · exact List.mem_append_right _

theorem lt_index_of_mem_edges {e : Edge × Mark} (h : e ∈ edges (marksFrom (n + 1) c samples)) :
    n < e.2.index := by
  have := (marksFrom_bounds _ (mem_of_mem_edges h)).1
  omega

/-- While a press is down nothing happens until the Up edge that ends it. -/
theorem held_until_release (hi : c.initialized = true) (hg : Grounded c) (hheld : c.phase.held)
    {e : Edge} (hu : (edges (marksFrom n c samples)).head? = some (e, u)) :
    ∃ (c' : TouchClassifier) (pressed' : Bool), c'.phase = c.phase ∧
      (c'.debounce pressed' u.time).2 = some .up ∧
      ∀ g, (u, g) ∈ reportsFrom n c samples ↔ (c'.update pressed' u.time).2 = some g := by
  induction samples generalizing n c with
  | nil => simp [marksFrom, edges] at hu
  | cons sample rest ih =>
    obtain ⟨pressed, now⟩ := sample
    have hlevel := debounce_level hi pressed now
    have hphase := update_phase c n pressed now
    rw [marksFrom] at hu
    cases he : (c.debounce pressed now).2 with
    | none =>
      have hsame : (c.update pressed now).1.phase = c.phase := by
        rw [hphase, he]
        cases hp : c.phase <;> simp_all [Phase.next, Phase.held]
      rw [edges_cons_none he] at hu
      obtain ⟨c', pressed', hp, hup, hreports⟩ :=
        ih (update_level c pressed now).1 (grounded_step hi hg) (hsame ▸ hheld) hu
      refine ⟨c', pressed', hp.trans hsame, hup, fun g => ?_⟩
      rw [← hreports g]
      exact mem_reportsFrom_later (lt_index_of_mem_edges (List.mem_of_head? hu))
    | some edge =>
      cases edge with
      | down =>
        have hhigh := hg hheld
        simp [he, hhigh] at hlevel
      | up =>
        rw [edges_cons_some he] at hu
        obtain ⟨-, rfl⟩ := by simpa using hu
        exact ⟨c, pressed, rfl, he, fun g => mem_reportsFrom_head rfl⟩

/-- A press that began as a first press and lasted is reported when it ends. -/
theorem hold_at_release {start : ℕ} (hp : c.phase = .firstDown start)
    (he : (c.debounce pressed now).2 = some .up) (hlong : holdMs ≤ now - start) :
    (c.update pressed now).2 = some (.hold (TouchClassifier.clampDuration (now - start))) := by
  obtain ⟨hphase, -, -⟩ := debounce_frame c pressed now
  rw [hp] at hphase
  rw [update_of_up he]
  simp [TouchClassifier.onRelease, hphase, hlong]

/-- A drained press ends without a word. -/
theorem silence_at_drained_release (hp : c.phase = .drainRelease)
    (he : (c.debounce pressed now).2 = some .up) : (c.update pressed now).2 = none := by
  obtain ⟨hphase, -, -⟩ := debounce_frame c pressed now
  rw [hp] at hphase
  rw [update_of_up he]
  simp [TouchClassifier.onRelease, hphase]

/-- The press beginning now would be the second of a double tap, and the rate limiter refuses
to report it. -/
def Refused (c : TouchClassifier) (now : ℕ) : Prop :=
  ∃ released, c.phase = .waitSecond released ∧ now - released < doubletapWindowMs ∧
    c.lastEmitValid = true ∧ now - c.lastEmitMs < minEventGapMs

/-- What the Down edge of a press leads to. -/
theorem press_cases (hi : c.initialized = true) (hg : Grounded c)
    (he : (c.debounce pressed now).2 = some .down) :
    Refused c now ∧ (c.update pressed now).1.phase = .drainRelease ∧
        (c.update pressed now).2 = none ∨
      ¬ Refused c now ∧ (c.update pressed now).1.phase = .drainRelease ∧
        (c.update pressed now).2 = some .doubleTap ∨
      ¬ Refused c now ∧ (c.update pressed now).1.phase = .firstDown now := by
  obtain ⟨hphase, hms, hvalid⟩ := debounce_frame c pressed now
  have hlevel := debounce_level hi pressed now
  rw [update_of_down he]
  cases hp : c.phase with
  | idle =>
    right; right
    simp [Refused, TouchClassifier.onPress, hphase, hp]
  | firstDown start =>
    have hhigh : c.stableLevel = true := hg (by simp [hp, Phase.held])
    simp [he, hhigh] at hlevel
  | drainRelease =>
    have hhigh : c.stableLevel = true := hg (by simp [hp, Phase.held])
    simp [he, hhigh] at hlevel
  | waitSecond released =>
    by_cases hw : now - released < doubletapWindowMs
    · by_cases hlimit : c.lastEmitValid = true ∧ now - c.lastEmitMs < minEventGapMs
      · left
        simp [Refused, TouchClassifier.onPress, TouchClassifier.emitLimited, hphase, hp, hw, hms,
          hvalid, hlimit]
      · right; left
        simp [Refused, TouchClassifier.onPress, TouchClassifier.emitLimited, hphase, hp, hw, hms,
          hvalid, hlimit]
    · right; right
      simp [Refused, TouchClassifier.onPress, hphase, hp, hw]

/-- The press was reported: as a hold at its end, or as a double tap at its start. -/
def Reported (answers : List (Mark × Gesture)) (d u : Mark) : Prop :=
  (∃ duration, (u, .hold duration) ∈ answers) ∨ (d, .doubleTap) ∈ answers

theorem mem_presses_up {es : List (Edge × Mark)} (h : ⟨d, some u⟩ ∈ presses es) :
    ∃ e, (e, u) ∈ es := by
  fun_induction presses es with
  | case1 => simp at h
  | case2 _ es ih =>
    obtain ⟨e, he⟩ := ih h
    exact ⟨e, List.mem_cons_of_mem _ he⟩
  | case3 d => simp at h
  | case4 d e u es ih =>
    rcases List.mem_cons.mp h with h | h
    · obtain ⟨-, rfl⟩ := by simpa using h
      exact ⟨e, by simp⟩
    · obtain ⟨e, he⟩ := ih h
      exact ⟨e, by simp [he]⟩

theorem reported_later (hd : n < d.index) (hu : n < u.index) :
    Reported (reportsFrom n c ((pressed, now) :: samples)) d u ↔
      Reported (reportsFrom (n + 1) (c.update pressed now).1 samples) d u := by
  simp only [Reported, mem_reportsFrom_later hd, mem_reportsFrom_later hu]

/-- The press just begun, which the next edge ends. -/
theorem reported_first_iff (hi : c.initialized = true) (hg : Grounded c)
    (he : (c.debounce pressed now).2 = some .down) {e : Edge}
    (hu : (edges (marksFrom (n + 1) (c.update pressed now).1 samples)).head? = some (e, u))
    (hlong : holdMs ≤ u.time - now) :
    Reported (reportsFrom n c ((pressed, now) :: samples)) ⟨n, now, some .down⟩ u ↔
      ¬ Refused c now := by
  have hi' : (c.update pressed now).1.initialized = true := (update_level c pressed now).1
  have hg' : Grounded (c.update pressed now).1 := grounded_step hi hg
  have hun : n < u.index := lt_index_of_mem_edges (List.mem_of_head? hu)
  simp only [Reported, mem_reportsFrom_head he, mem_reportsFrom_later hun]
  rcases press_cases hi hg he with ⟨hr, hp, hd⟩ | ⟨hr, hp, hd⟩ | ⟨hr, hp⟩
  · obtain ⟨c', pressed', hp', hup, hreports⟩ :=
      held_until_release hi' hg' (by simp [hp, Phase.held]) hu
    have hsilent := silence_at_drained_release (hp'.trans hp) hup
    simp [hr, hd, hreports, hsilent]
  · simp [hr, hd]
  · obtain ⟨c', pressed', hp', hup, hreports⟩ :=
      held_until_release hi' hg' (by simp [hp, Phase.held]) hu
    have hhold := hold_at_release (hp'.trans hp) hup hlong
    simp [hr, hreports, hhold]

theorem reported_from_iff (hi : c.initialized = true) (hg : Grounded c)
    (hp : ⟨d, some u⟩ ∈ presses (edges (marksFrom n c samples)))
    (hlong : holdMs ≤ u.time - d.time) :
    Reported (reportsFrom n c samples) d u ↔
      ¬ Refused (classifierAfter c (samples.take (d.index - n))) d.time := by
  induction samples generalizing n c with
  | nil => simp [marksFrom, edges, presses] at hp
  | cons sample rest ih =>
    obtain ⟨pressed, now⟩ := sample
    have hi' : (c.update pressed now).1.initialized = true := (update_level c pressed now).1
    have hg' : Grounded (c.update pressed now).1 := grounded_step hi hg
    -- A press among the later samples is the rest's own.
    have hlater (hp : ⟨d, some u⟩ ∈
        presses (edges (marksFrom (n + 1) (c.update pressed now).1 rest))) :
        Reported (reportsFrom n c ((pressed, now) :: rest)) d u ↔
          ¬ Refused (classifierAfter c (((pressed, now) :: rest).take (d.index - n))) d.time := by
      have hd : n < d.index := lt_index_of_mem_edges (mem_presses hp)
      obtain ⟨e, hmem⟩ := mem_presses_up hp
      have hindex : d.index - n = (d.index - (n + 1)) + 1 := by omega
      rw [reported_later hd (lt_index_of_mem_edges hmem), ih hi' hg' hp, hindex,
        List.take_succ_cons]
      rfl
    rw [marksFrom] at hp
    cases he : (c.debounce pressed now).2 with
    | none =>
      rw [edges_cons_none he] at hp
      exact hlater hp
    | some edge =>
      rw [edges_cons_some he] at hp
      cases edge with
      | up => exact hlater hp
      | down =>
        have halt : Alternating true (marksFrom (n + 1) (c.update pressed now).1 rest) := by
          have hlevel := debounce_level hi pressed now
          have hnext := marksFrom_alternating (n := n + 1) hi' rest
          simp only [he] at hlevel
          rwa [(update_level c pressed now).2, hlevel.2] at hnext
        rw [presses_down halt] at hp
        rcases List.mem_cons.mp hp with hp | hp
        · obtain ⟨rfl, hup⟩ := (Press.mk.injEq ..).mp hp
          obtain ⟨⟨e, m⟩, hhead, rfl⟩ := Option.map_eq_some_iff.mp hup.symm
          have hfirst := reported_first_iff hi hg he hhead hlong
          simpa [he, classifierAfter] using hfirst
        · exact hlater hp

/-- A long press goes unreported exactly when it began as the second press of a double tap that
the rate limiter refused. -/
theorem long_press_reported_iff (samples : List (Bool × ℕ)) (d u : Mark)
    (hpress : ⟨d, some u⟩ ∈ presses (edges (marks samples))) (hlong : holdMs ≤ u.time - d.time) :
    Reported (reports samples) d u ↔
      ¬ Refused (classifierAfter .new (samples.take d.index)) d.time := by
  cases samples with
  | nil => simp [marks, marksFrom, edges, presses] at hpress
  | cons sample rest =>
    obtain ⟨pressed, now⟩ := sample
    have hseed : (TouchClassifier.new.debounce pressed now).2 = none := rfl
    have hidle : (TouchClassifier.new.update pressed now).1.phase = .idle := rfl
    have hg : Grounded (TouchClassifier.new.update pressed now).1 := by
      intro hheld
      simp [hidle, Phase.held] at hheld
    rw [marks, marksFrom, edges_cons_none hseed] at hpress
    have hd : 0 < d.index := lt_index_of_mem_edges (mem_presses hpress)
    obtain ⟨e, hmem⟩ := mem_presses_up hpress
    have hrest := reported_from_iff (update_level .new pressed now).1 hg hpress hlong
    have hindex : d.index = (d.index - 1) + 1 := by omega
    rw [reports, reported_later hd (lt_index_of_mem_edges hmem), hrest]
    conv_rhs => rw [hindex, List.take_succ_cons]
    rfl

/-- A press of 895 ms that began the stream's only contact. -/
theorem long_press_reported_iff_first :
    Reported (reports [(false, 0), (true, 5), (true, 45), (false, 900), (false, 940)])
        ⟨2, 45, some .down⟩ ⟨4, 940, some .up⟩ ↔
      ¬ Refused (classifierAfter .new [(false, 0), (true, 5)]) 45 :=
  long_press_reported_iff [(false, 0), (true, 5), (true, 45), (false, 900), (false, 940)]
    ⟨2, 45, some .down⟩ ⟨4, 940, some .up⟩ (by decide) (by decide)

/-- A double tap, a short tap 95 ms after it, and a press of 905 ms right behind. -/
def mashedThenHeld : List (Bool × ℕ) :=
  [(false, 0), (true, 10), (true, 50), (false, 60), (false, 100), (true, 110), (true, 150),
    (false, 160), (false, 200), (true, 205), (true, 245), (false, 250), (false, 290), (true, 295),
    (true, 335), (false, 1200), (false, 1240)]

/-- The long press is drained like the second half of a double tap that was never reported. -/
theorem long_press_goes_unreported :
    mashedThenHeld.Pairwise (·.2 ≤ ·.2) ∧
      ∃ d u, ⟨d, some u⟩ ∈ presses (edges (marks mashedThenHeld)) ∧ holdMs ≤ u.time - d.time ∧
        ¬ Reported (reports mashedThenHeld) d u := by
  refine ⟨by decide, ⟨14, 335, some .down⟩, ⟨16, 1240, some .up⟩, by decide, by decide, ?_⟩
  have hreports : reports mashedThenHeld = [(⟨6, 150, some .down⟩, .doubleTap)] := by decide
  simp [hreports, Reported]

end Hologotchi.Touch
