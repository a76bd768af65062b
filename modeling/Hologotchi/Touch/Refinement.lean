import Hologotchi.Touch.Handlers

/-! The classifier reports exactly the batch reading of its accepted edges. -/
namespace Hologotchi.Touch

variable {l : Bool} {m d u : Mark} {ms pre : List Mark}

/-- The edges of the marks alternate, starting from the given stable level. -/
def Alternating : Bool → List Mark → Prop
  | _, [] => True
  | l, m :: ms =>
    match m.edge with
    | none => Alternating l ms
    | some .down => l = false ∧ Alternating true ms
    | some .up => l = true ∧ Alternating false ms

theorem marksFrom_alternating {n : ℕ} {c : TouchClassifier} (hc : c.initialized = true)
    (samples : List (Bool × ℕ)) : Alternating c.stableLevel (marksFrom n c samples) := by
  induction samples generalizing n c with
  | nil => trivial
  | cons sample rest ih =>
    obtain ⟨pressed, now⟩ := sample
    have hlevel := debounce_level hc pressed now
    have hnext := ih (n := n + 1) (c := (c.update pressed now).1) (update_level c pressed now).1
    rw [(update_level c pressed now).2] at hnext
    simp only [marksFrom, Alternating]
    revert hlevel
    cases (c.debounce pressed now).2 with
    | none => intro hl; simpa [hl] using hnext
    | some e =>
      cases e with
      | down => rintro ⟨hl, ht⟩; exact ⟨hl, by simpa [ht] using hnext⟩
      | up => rintro ⟨hl, ht⟩; exact ⟨hl, by simpa [ht] using hnext⟩

/-- The first sample only seeds the baseline, so the level after it is the sample's. -/
theorem marks_alternating (samples : List (Bool × ℕ)) : ∃ l, Alternating l (marks samples) := by
  cases samples with
  | nil => exact ⟨false, trivial⟩
  | cons sample rest =>
    obtain ⟨pressed, now⟩ := sample
    refine ⟨(TouchClassifier.new.update pressed now).1.stableLevel, ?_⟩
    exact marksFrom_alternating (update_level .new pressed now).1 rest

/-- Marks are in stream order: positions grow and times do not go back. -/
def Ordered (ms : List Mark) : Prop :=
  ms.Pairwise fun a b => a.index < b.index ∧ a.time ≤ b.time

theorem marksFrom_bounds {n : ℕ} {c : TouchClassifier} {samples : List (Bool × ℕ)} :
    ∀ m ∈ marksFrom n c samples, n ≤ m.index ∧ ∃ s ∈ samples, m.time = s.2 := by
  induction samples generalizing n c with
  | nil => simp [marksFrom]
  | cons sample rest ih =>
    intro m hm
    rcases List.mem_cons.mp hm with rfl | hm
    · exact ⟨Nat.le_refl n, sample, by simp, rfl⟩
    · obtain ⟨hn, s, hs, ht⟩ := ih m hm
      exact ⟨by omega, s, by simp [hs], ht⟩

theorem marksFrom_ordered {n : ℕ} {c : TouchClassifier} {samples : List (Bool × ℕ)}
    (hs : samples.Pairwise (·.2 ≤ ·.2)) : Ordered (marksFrom n c samples) := by
  induction samples generalizing n c with
  | nil => exact .nil
  | cons sample rest ih =>
    obtain ⟨hfirst, hrest⟩ := List.pairwise_cons.mp hs
    refine List.pairwise_cons.mpr ⟨fun m hm => ?_, ih hrest⟩
    obtain ⟨hn, s, hmem, ht⟩ := marksFrom_bounds m hm
    exact ⟨hn, by simpa [ht] using hfirst s hmem⟩

theorem edges_cons_none (h : m.edge = none) : edges (m :: ms) = edges ms := by
  simp [edges, h]

theorem edges_cons_some {e : Edge} (h : m.edge = some e) :
    edges (m :: ms) = (e, m) :: edges ms := by
  simp [edges, h]

/-- While the level is high the next edge, if any, is an Up edge. -/
theorem edges_of_high (h : Alternating true ms) :
    edges ms = [] ∨ ∃ u es, edges ms = (.up, u) :: es := by
  induction ms with
  | nil => exact .inl rfl
  | cons m ms ih =>
    simp only [Alternating] at h
    cases he : m.edge with
    | none =>
      rw [edges_cons_none he]
      exact ih (by simpa [he] using h)
    | some e =>
      cases e with
      | down => simp [he] at h
      | up => exact .inr ⟨m, edges ms, edges_cons_some he⟩

/-- The press opened by a Down edge is closed by the next edge, and the presses after it
are those of the remaining edges: its own Up edge opens none. -/
theorem presses_down (h : Alternating true ms) (d : Mark) :
    presses ((.down, d) :: edges ms) = ⟨d, (edges ms).head?.map (·.2)⟩ :: presses (edges ms) := by
  rcases edges_of_high h with he | ⟨u, es, he⟩ <;> simp [he, presses]

theorem mem_presses {es : List (Edge × Mark)} {p : Press} (h : p ∈ presses es) :
    (.down, p.down) ∈ es := by
  fun_induction presses es with
  | case1 => simp at h
  | case2 _ es ih => exact List.mem_cons_of_mem _ (ih h)
  | case3 d => simp_all
  | case4 d _ u es ih =>
    rcases List.mem_cons.mp h with rfl | h
    · simp
    · simp [ih h]

theorem mem_of_mem_edges {e : Edge} (h : (e, m) ∈ edges ms) : m ∈ ms := by
  simp only [edges, List.mem_filterMap, Option.map_eq_some_iff] at h
  obtain ⟨x, hx, _, _, heq⟩ := h
  simp_all

/-- What the marks read so far leave open. -/
inductive Memory
  | idle
  | firstDown (d : Mark)
  | waitSecond (d u : Mark)
  | drainRelease

namespace Memory

def phase : Memory → Phase
  | .idle => .idle
  | .firstDown d => .firstDown d.time
  | .waitSecond _ u => .waitSecond u.time
  | .drainRelease => .drainRelease

/-- The batch reading of the remaining edges, the open press put back in front. -/
def reading (all : List Mark) (es : List (Edge × Mark)) : Memory → List (Mark × Report)
  | .idle | .drainRelease => gestures all (presses es)
  | .firstDown d => gestures all (presses ((.down, d) :: es))
  | .waitSecond d u => gestures all (⟨d, some u⟩ :: presses es)

/-- The memory agrees with the marks before it and the stable level. -/
def Agrees (pre : List Mark) (l : Bool) : Memory → Prop
  | .idle => True
  | .firstDown _ | .drainRelease => l = true
  | .waitSecond d u => l = false ∧ u.time - d.time < holdMs ∧ u ∈ pre ∧
      ∀ m ∈ pre, u.index < m.index → m.time - u.time < doubletapWindowMs

end Memory

theorem windowEnd_none
    (hpre : ∀ x ∈ pre, u.index < x.index → x.time - u.time < doubletapWindowMs) :
    windowEnd pre u = none := by
  apply List.find?_eq_none.mpr
  intro x hx
  have := hpre x hx
  simp only [decide_eq_true_eq]
  omega

theorem pendingTap_none
    (hpre : ∀ x ∈ pre, u.index < x.index → x.time - u.time < doubletapWindowMs) :
    pendingTap pre u = [] := by
  simp [pendingTap, windowEnd_none hpre]

/-- The pending tap falls on the first mark at which the window has run out. -/
theorem pendingTap_first (ms : List Mark)
    (hpre : ∀ x ∈ pre, u.index < x.index → x.time - u.time < doubletapWindowMs)
    (hu : u.index < m.index) (hw : doubletapWindowMs ≤ m.time - u.time) :
    pendingTap (pre ++ m :: ms) u = [(m, .tap)] := by
  have hfirst : windowEnd (pre ++ m :: ms) u = some m := by
    have hnone := windowEnd_none hpre
    simp only [windowEnd] at hnone ⊢
    rw [List.find?_append, hnone, List.find?_cons_of_pos (by simp [hu, hw])]
    rfl
  simp [pendingTap, hfirst]

/-- A lone short press whose window ends at `m` is a tap at `m`, whatever comes after. -/
theorem gestures_expired {all : List Mark} {rest : List Press} (hd : u.time - d.time < holdMs)
    (hrest : ∀ p ∈ rest, doubletapWindowMs ≤ p.down.time - u.time)
    (htap : pendingTap all u = [(m, .tap)]) :
    gestures all (⟨d, some u⟩ :: rest) = (m, .tap) :: gestures all rest := by
  cases rest with
  | nil => simp [gestures, Nat.not_le.mpr hd, htap]
  | cons second others =>
    have := hrest second (by simp)
    simp [gestures, Nat.not_le.mpr hd, Nat.not_lt.mpr this, htap]

theorem candidates_cons {p q : Phase} {o : Option Report} (h : p.next m = (q, o)) :
    candidates p (m :: ms) = (o.map (m, ·)).toList ++ candidates q ms := by
  simp [candidates, h]

/-- Reading `m` turns the memory `μ` into one for the remaining marks: if the phase machine
follows that one, it follows `μ`. -/
def Follows (all pre : List Mark) (m : Mark) (ms : List Mark) (l : Bool) (μ : Memory) : Prop :=
  ∃ μ' : Memory, μ'.Agrees (pre ++ [m]) l ∧
    (candidates μ'.phase ms = μ'.reading all (edges ms) →
      candidates μ.phase (m :: ms) = μ.reading all (edges (m :: ms)))

section Marks

variable {all : List Mark} {n t : ℕ} {μ : Memory}

theorem follows_tick (hord : Ordered all) (hall : all = pre ++ ⟨n, t, none⟩ :: ms)
    (hμ : μ.Agrees pre l) : Follows all pre ⟨n, t, none⟩ ms l μ := by
  obtain ⟨-, hcons, hbefore⟩ := List.pairwise_append.mp (hall ▸ hord)
  simp only [Follows]
  rw [edges_cons_none rfl]
  cases μ with
  | idle => exact ⟨.idle, trivial, fun h => h⟩
  | drainRelease => exact ⟨.drainRelease, hμ, fun h => h⟩
  | firstDown d => exact ⟨.firstDown d, hμ, fun h => h⟩
  | waitSecond d u =>
    obtain ⟨hl, hd, hu, hpre⟩ := hμ
    by_cases hw : doubletapWindowMs ≤ t - u.time
    · have hlate : ∀ p ∈ presses (edges ms), doubletapWindowMs ≤ p.down.time - u.time := by
        intro p hp
        have ht : t ≤ p.down.time :=
          ((List.pairwise_cons.mp hcons).1 _ (mem_of_mem_edges (mem_presses hp))).2
        omega
      have htap := pendingTap_first ms hpre (hbefore u hu _ List.mem_cons_self).1 hw
      refine ⟨.idle, trivial, fun h => ?_⟩
      rw [candidates_cons (q := .idle) (o := some .tap) (by simp [Memory.phase, Phase.next, hw])]
      simp only [Memory.reading, gestures_expired hd hlate (hall ▸ htap)]
      exact congrArg (_ :: ·) h
    · refine ⟨.waitSecond d u, ⟨hl, hd, by simp [hu], ?_⟩, fun h => ?_⟩
      · intro x hx hux
        rcases List.mem_append.mp hx with hx | hx
        · exact hpre x hx hux
        · rw [List.mem_singleton.mp hx]
          exact Nat.not_le.mp hw
      · rw [candidates_cons (q := .waitSecond u.time) (o := none)
          (by simp [Memory.phase, Phase.next, hw])]
        exact h

theorem follows_down (hord : Ordered all) (hall : all = pre ++ ⟨n, t, some .down⟩ :: ms)
    (hlev : Alternating true ms) (hμ : μ.Agrees pre false) :
    Follows all pre ⟨n, t, some .down⟩ ms true μ := by
  obtain ⟨-, hcons, hbefore⟩ := List.pairwise_append.mp (hall ▸ hord)
  simp only [Follows]
  rw [edges_cons_some rfl]
  cases μ with
  | idle => exact ⟨.firstDown ⟨n, t, some .down⟩, rfl, fun h => h⟩
  | drainRelease => simp [Memory.Agrees] at hμ
  | firstDown d => simp [Memory.Agrees] at hμ
  | waitSecond d u =>
    obtain ⟨-, hd, hu, hpre⟩ := hμ
    by_cases hw : t - u.time < doubletapWindowMs
    · refine ⟨.drainRelease, rfl, fun h => ?_⟩
      rw [candidates_cons (q := .drainRelease) (o := some .doubleTap)
        (by simp [Memory.phase, Phase.next, hw])]
      simp only [Memory.reading, presses_down hlev, gestures, Nat.not_le.mpr hd, hw, if_true,
        if_false]
      exact congrArg (_ :: ·) h
    · have hw' : doubletapWindowMs ≤ t - u.time := Nat.not_lt.mp hw
      have hlate : ∀ p ∈ presses ((.down, ⟨n, t, some .down⟩) :: edges ms),
          doubletapWindowMs ≤ p.down.time - u.time := by
        intro p hp
        rcases List.mem_cons.mp (mem_presses hp) with he | he
        · simpa [((Prod.mk.injEq ..).mp he).2] using hw'
        · have ht : t ≤ p.down.time := ((List.pairwise_cons.mp hcons).1 _ (mem_of_mem_edges he)).2
          omega
      have htap := pendingTap_first ms hpre (hbefore u hu _ List.mem_cons_self).1 hw'
      refine ⟨.firstDown ⟨n, t, some .down⟩, rfl, fun h => ?_⟩
      rw [candidates_cons (q := .firstDown t) (o := some .tap)
        (by simp [Memory.phase, Phase.next, hw])]
      simp only [Memory.reading, gestures_expired hd hlate (hall ▸ htap)]
      exact congrArg (_ :: ·) h

theorem follows_up (hord : Ordered all) (hall : all = pre ++ ⟨n, t, some .up⟩ :: ms)
    (hμ : μ.Agrees pre true) : Follows all pre ⟨n, t, some .up⟩ ms false μ := by
  obtain ⟨-, -, hbefore⟩ := List.pairwise_append.mp (hall ▸ hord)
  simp only [Follows]
  rw [edges_cons_some rfl]
  cases μ with
  | idle => exact ⟨.idle, trivial, fun h => h⟩
  | drainRelease => exact ⟨.idle, trivial, fun h => h⟩
  | waitSecond d u => simp [Memory.Agrees] at hμ
  | firstDown d =>
    by_cases hh : holdMs ≤ t - d.time
    · refine ⟨.idle, trivial, fun h => ?_⟩
      rw [candidates_cons (q := .idle)
        (o := some (.hold (min (t - d.time) holdDurationMaxMs.toNat)))
        (by simp [Memory.phase, Phase.next, hh])]
      rw [Memory.reading, presses, gestures.eq_def]
      simp only [hh, if_true]
      exact congrArg (_ :: ·) h
    · refine ⟨.waitSecond d ⟨n, t, some .up⟩, ⟨rfl, Nat.not_le.mp hh, by simp, ?_⟩, fun h => ?_⟩
      · -- Nothing read so far is later than the release just read.
        intro x hx hux
        rcases List.mem_append.mp hx with hx | hx
        · have := (hbefore x hx _ List.mem_cons_self).1
          omega
        · simp [List.mem_singleton.mp hx] at hux
      · rw [candidates_cons (q := .waitSecond t) (o := none)
          (by simp [Memory.phase, Phase.next, hh])]
        exact h

end Marks

/-- The phase machine over the remaining marks follows the batch reading. -/
theorem candidates_eq_reading {all : List Mark} (hord : Ordered all) (μ : Memory)
    (hall : all = pre ++ ms) (hlev : Alternating l ms) (hμ : μ.Agrees pre l) :
    candidates μ.phase ms = μ.reading all (edges ms) := by
  induction ms generalizing μ pre l with
  | nil =>
    cases μ with
    | idle | drainRelease => rfl
    | firstDown d => rfl
    | waitSecond d u =>
      obtain ⟨-, hd, -, hpre⟩ := hμ
      have hnil : all = pre := by simpa using hall
      subst hnil
      simp [candidates, Memory.reading, edges, presses, gestures, Nat.not_le.mpr hd,
        pendingTap_none hpre]
  | cons m ms ih =>
    have hall' : all = (pre ++ [m]) ++ ms := by simpa using hall
    obtain ⟨n, t, e⟩ := m
    cases e with
    | none =>
      obtain ⟨μ', hμ', hf⟩ := follows_tick hord hall hμ
      exact hf (ih μ' hall' hlev hμ')
    | some e =>
      cases e with
      | down =>
        obtain ⟨rfl, hlev⟩ := hlev
        obtain ⟨μ', hμ', hf⟩ := follows_down hord hall hlev hμ
        exact hf (ih μ' hall' hlev hμ')
      | up =>
        obtain ⟨rfl, hlev⟩ := hlev
        obtain ⟨μ', hμ', hf⟩ := follows_up hord hall hμ
        exact hf (ih μ' hall' hlev hμ')

/-- For every stream with non-decreasing timestamps, the gestures returned by `update` from
`new`, each with its sample, are exactly the batch reading of the accepted edges. -/
theorem update_refines_expected (samples : List (Bool × ℕ))
    (hmono : samples.Pairwise (·.2 ≤ ·.2)) :
    (reports samples).map (fun e => (e.1, e.2.report)) = expected samples := by
  obtain ⟨l, hlev⟩ := marks_alternating samples
  have hread := candidates_eq_reading (marksFrom_ordered hmono) .idle (List.nil_append _).symm hlev
    trivial
  exact (reportsFrom_eq_rateLimit 0 .new samples).trans (congrArg (rateLimit none) hread)

/-- The refinement on a stream in which a long press is held past its reported maximum. -/
theorem update_refines_expected_long_press :
    [(false, 0), (true, 5), (true, 45), (false, 60100), (false, 60140)].Pairwise
        (fun a b : Bool × ℕ => a.2 ≤ b.2) ∧
      (reports [(false, 0), (true, 5), (true, 45), (false, 60100), (false, 60140)]).map
        (fun e => (e.1, e.2.report)) = [(⟨4, 60140, some .up⟩, .hold 60000)] :=
  ⟨by decide, (update_refines_expected _ (by decide)).trans (by decide)⟩

end Hologotchi.Touch
