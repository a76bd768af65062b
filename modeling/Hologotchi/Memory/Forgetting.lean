import Hologotchi.Memory.Reflection
import Mathlib.Tactic.Linarith

/-! When a memory that was forgotten comes back: consolidation derives it anew from what is
left. -/
namespace Hologotchi.Memory

open Python Library Library.Table Library.Fallible

variable {e : Engine} {s t u : Store} {rule other : ConsolidationRule} {row r : Row} {now : ℚ}
  {kind : Kind} {hit : Row → Bool} {n : ℕ} {m : Moment} {set : Row → Row} {rows : List Row}

/-- The rows that say the same as this one, from the same source. -/
def sameMoment (row r : Row) : Bool := r.source = row.source ∧ r.summary = row.summary

/-- The fact the rule captures is what the row said. -/
def ConsolidationRule.Derives (rule : ConsolidationRule) (row : Row) : Prop :=
  row.source = str "reflection" ∧ row.summary = cleanSummary rule.summary

/-- The next consolidation stores the rule's fact: it is not known, and the rows that are left
are still enough evidence for it. -/
structure Store.Recreates (s : Store) (rule : ConsolidationRule) : Prop where
  writes : s.writesEnabled = true
  unknown : s.hasSummary rule.summary (some rule.kind) = .ok false
  counted : ∃ n, s.countBy { source := rule.source, tag := rule.tag } = .ok n ∧ rule.threshold ≤ n

/-- The calls that neither capture nor control: what the loop does by itself. -/
def Call.Background : Call → Prop
  | .retrieve .. | .spontaneousCallback .. | .consolidateMemory _ => True
  | .capture .. | .forget _ | .forgetBy _ | .reset | .setWritesEnabled _ => False

/-- No such calls bring a row back that says the same. -/
def Store.StaysForgotten (e : Engine) (s : Store) (row : Row) : Prop :=
  ∀ calls : List Call, (∀ call ∈ calls, call.Background) →
    count (sameMoment row) (finalState (perform e) s calls).rows = count (sameMoment row) s.rows

/-- What the calls of a rule on the store come down to. -/
structure ConsolidationRule.Reads (rule : ConsolidationRule) (kind : Kind) (hit : Row → Bool) :
    Prop where
  kind : checkKind rule.kind = .ok kind
  summary : cleanSummary rule.summary ≠ []
  text : bindText (cleanSummary rule.summary) = .ok ()
  condition : CountFilter.condition { source := rule.source, tag := rule.tag } = .ok hit

theorem reads_rules (h : rule ∈ rules) : ∃ kind hit, rule.Reads kind hit := by
  have hsummaries : ∀ rule ∈ rules, cleanSummary rule.summary ≠ [] := by decide +kernel
  have haccepted := rules_accepted rule h
  obtain ⟨kind, hkind⟩ := exists_of_isOk haccepted.kind
  obtain ⟨_, htext⟩ := exists_of_isOk haccepted.summary
  obtain ⟨hit, hcondition⟩ := exists_of_isOk haccepted.condition
  exact ⟨kind, hit, hkind, hsummaries rule h, htext, hcondition⟩

theorem hasSummary_eq (hr : rule.Reads kind hit) :
    s.hasSummary rule.summary (some rule.kind) =
      .ok (s.rows.any fun r => r.summary = cleanSummary rule.summary && r.kind = kind) := by
  have hkind : (some rule.kind).mapM checkKind = .ok (some kind) := by
    simp only [Option.mapM_some, hr.kind]
    rfl
  simp only [Store.hasSummary, if_neg hr.summary, hkind, hr.text]
  rfl

theorem countBy_eq (hr : rule.Reads kind hit) :
    s.countBy { source := rule.source, tag := rule.tag } = .ok (count hit s.rows) := by
  simp only [Store.countBy, hr.condition]
  rfl

theorem recreates_iff (hr : rule.Reads kind hit) :
    s.Recreates rule ↔ s.writesEnabled = true ∧
      (∀ r ∈ s.rows, r.summary = cleanSummary rule.summary → r.kind ≠ kind) ∧
      rule.threshold ≤ count hit s.rows := by
  have hunknown : s.hasSummary rule.summary (some rule.kind) = .ok false ↔
      ∀ r ∈ s.rows, r.summary = cleanSummary rule.summary → r.kind ≠ kind := by
    rw [hasSummary_eq hr]
    simp
  constructor
  · rintro ⟨hwrites, hnew, n, hcount, hle⟩
    rw [countBy_eq hr, Except.ok.injEq] at hcount
    exact ⟨hwrites, hunknown.mp hnew, hcount ▸ hle⟩
  · rintro ⟨hwrites, hnew, hle⟩
    exact ⟨hwrites, hunknown.mpr hnew, _, countBy_eq hr, hle⟩

/-- The evidence for a rule is found by source and tags alone. -/
theorem reads_congr (hr : rule.Reads kind hit) {r r' : Row} (hsource : r.source = r'.source)
    (htags : r.tags = r'.tags) : hit r = hit r' := by
  obtain ⟨token, -, h⟩ := bind_eq_ok.mp hr.condition
  obtain ⟨nokind, hnokind, h⟩ := bind_eq_ok.mp h
  obtain ⟨_, -, h⟩ := bind_eq_ok.mp h
  obtain rfl := Except.ok.inj hnokind
  obtain rfl := Except.ok.inj h
  simp [hsource, htags]

/-- No rule takes the fact of another for evidence. -/
theorem reads_other (hr : rule.Reads kind hit) (hrule : rule ∈ rules) (hother : other ∈ rules)
    (hne : cleanSummary rule.summary ≠ cleanSummary other.summary) {k : Kind} :
    hit (s.newRow other.moment k now) = false := by
  have hprobe : ∀ a ∈ rules, ∀ b ∈ rules, cleanSummary a.summary ≠ cleanSummary b.summary →
      ((CountFilter.condition { source := a.source, tag := a.tag }).map fun hit =>
        hit (Store.newRow {} b.moment .episodic 0)).toOption = some false := by
    decide +kernel
  have hfalse := hprobe rule hrule other hother hne
  rw [hr.condition] at hfalse
  have hsame : hit (s.newRow other.moment k now) = hit (Store.newRow {} other.moment .episodic 0) :=
    reads_congr hr rfl rfl
  rw [hsame]
  exact Option.some.inj hfalse

/-- What the turn of a rule does to the store. -/
inductive Turn (rule : ConsolidationRule) (now : ℚ) (s : Store) : Store → Prop
  | skip : Turn rule now s s
  | bump (r : Row) (intensity : ℤ) : Turn rule now s (s.bumpExisting r intensity now)
  | store (kind : Kind) (h : s.Recreates rule) :
      Turn rule now s (s.insert (s.newRow rule.moment kind now))

theorem applyRule_turn (h : s.applyRule e rule now = .ok (n, t)) : Turn rule now s t := by
  obtain ⟨known, hknown, h⟩ := bind_eq_ok.mp h
  split at h
  · cases h
    exact .skip
  next hnew =>
    obtain ⟨seen, hseen, h⟩ := bind_eq_ok.mp h
    split at h
    · cases h
      exact .skip
    next hle =>
      obtain ⟨⟨memoryId, u⟩, hcapture, h⟩ := bind_eq_ok.mp h
      cases h
      have hunknown : s.hasSummary rule.summary (some rule.kind) = .ok false := by
        rw [hknown, Bool.eq_false_iff.mpr hnew]
      cases hwrites : s.writesEnabled with
      | false =>
        simp only [Store.capture, hwrites, Bool.not_false, if_true] at hcapture
        cases hcapture
        exact .skip
      | true =>
        rcases capture_ok hcapture with rfl | ⟨r, -, rfl⟩ | ⟨kind, -, -, -, rfl⟩
        · exact .skip
        · exact .bump r _
        · exact .store kind ⟨hwrites, hunknown, seen, hseen, not_lt.mp hle⟩

/-- A change of a row that leaves what it says and how it is found. -/
def Marks (set : Row → Row) : Prop :=
  ∀ r, (set r).source = r.source ∧ (set r).summary = r.summary ∧ (set r).kind = r.kind ∧
    (set r).tags = r.tags

theorem marks_bump {old : ℚ} {intensity : ℤ} :
    Marks fun r => (r.recalled old now).raiseIntensity intensity :=
  fun _ => ⟨rfl, rfl, rfl, rfl⟩

/-- The evidence of a rule does not change when rows are marked. -/
theorem recreates_update (hrule : rule ∈ rules) {hits : Row → Bool} (hset : Marks set) :
    Store.Recreates { s with rows := update hits set s.rows } rule ↔ s.Recreates rule := by
  obtain ⟨kind, hit, hr⟩ := reads_rules hrule
  have hcount : count hit (update hits set s.rows) = count hit s.rows :=
    count_update fun r => reads_congr hr (hset r).1 (hset r).2.2.2
  rw [recreates_iff hr, recreates_iff hr, hcount]
  simp only [update, List.forall_mem_map]
  refine and_congr_right fun _ => and_congr_left fun _ => forall₂_congr fun r _ => ?_
  split
  · rw [(hset r).2.1, (hset r).2.2.1]
  · rfl

/-- Nothing says what the row said beyond the rows that did, and no rule is about to. -/
structure Steady (row : Row) (n : ℕ) (s : Store) : Prop where
  count : count (sameMoment row) s.rows = n
  dormant : ∀ rule ∈ rules, rule.Derives row → ¬ s.Recreates rule

theorem Steady.update (h : Steady row n s) {hits : Row → Bool} (hset : Marks set) :
    Steady row n { s with rows := update hits set s.rows } where
  count := by
    rw [← h.count]
    exact count_update fun r => by simp [sameMoment, (hset r).1, (hset r).2.1]
  dormant := by
    intro rule hrule hderives hnew
    exact h.dormant rule hrule hderives ((recreates_update hrule hset).mp hnew)

theorem Steady.markRecalled (h : Steady row n s) (ids : List ℕ) :
    Steady row n (s.markRecalled ids now) :=
  h.update fun _ => ⟨rfl, rfl, rfl, rfl⟩

theorem Steady.turn (h : Steady row n s) (hrule : rule ∈ rules) (ht : Turn rule now s t) :
    Steady row n t := by
  cases ht with
  | skip => exact h
  | bump r intensity => exact h.update marks_bump
  | store kind hnew =>
    have hforeign : ¬ rule.Derives row := fun hderives => h.dormant rule hrule hderives hnew
    constructor
    · have hnot : sameMoment row (s.newRow rule.moment kind now) = false := by
        simp only [sameMoment, decide_eq_false_iff_not]
        rintro ⟨hsource, hsummary⟩
        exact hforeign ⟨hsource.symm, hsummary.symm⟩
      rw [← h.count, Store.insert, count_insert, hnot]
      rfl
    · intro other hother hderives hagain
      have hne : cleanSummary other.summary ≠ cleanSummary rule.summary := by
        intro heq
        exact hforeign ⟨hderives.1, hderives.2.trans heq⟩
      obtain ⟨k, hit, hr⟩ := reads_rules hother
      obtain ⟨hwrites, hunknown, hle⟩ := (recreates_iff hr).mp hagain
      rw [Store.insert, count_insert, reads_other hr hother hrule hne] at hle
      refine h.dormant other hother hderives ((recreates_iff hr).mpr ⟨hwrites, ?_, hle⟩)
      exact fun r hmem => hunknown r (List.mem_append_left _ hmem)

theorem Steady.consolidate (h : Steady row n s) {numbered : List (ConsolidationRule × ℕ)}
    {clock : ℕ → ℚ} {k : ℕ} (hrules : ∀ entry ∈ numbered, entry.1 ∈ rules)
    (hok : s.consolidate e clock numbered = .ok (k, t)) : Steady row n t := by
  refine consolidate_turns (fun entry hentry {s t n} hsteady hturn => ?_) hok h
  exact hsteady.turn (hrules entry hentry) (applyRule_turn hturn)

theorem mem_rules_of_zipIdx {entry : ConsolidationRule × ℕ} (h : entry ∈ rules.zipIdx) :
    entry.1 ∈ rules := List.fst_mem_of_mem_zipIdx h

theorem Steady.perform (h : Steady row n s) {call : Call} (hcall : call.Background) :
    Steady row n (perform e s call).1 := by
  have hmarked {ids : List ℕ} {now : ℚ} {t : Store} (ht : t = s ∨ t = s.markRecalled ids now) :
      Steady row n t := by
    rcases ht with rfl | rfl
    · exact h
    · exact h.markRecalled ids
  cases call with
  | retrieve now q =>
    cases hok : s.retrieve e now q with
    | error x => simpa [Memory.perform, settle, hok] using h
    | ok r => simpa [Memory.perform, settle, hok] using hmarked (retrieve_ok hok).2
  | spontaneousCallback now limits => exact hmarked (spontaneousCallback_store limits)
  | consolidateMemory clock =>
    cases hok : s.consolidateMemory e clock with
    | error x => simpa [Memory.perform, settle, hok] using h
    | ok r =>
      simpa [Memory.perform, settle, hok] using
        h.consolidate (fun _ => mem_rules_of_zipIdx) hok
  | _ => exact hcall.elim

theorem Steady.run (h : Steady row n s) (calls : List Call)
    (hcalls : ∀ call ∈ calls, call.Background) :
    Steady row n (finalState (Memory.perform e) s calls) :=
  finalState_keeps (fun _ _ hcall hsteady => hsteady.perform hcall) h hcalls

theorem capture_new {moment : Moment} (hwrites : s.writesEnabled = true)
    (hsummary : cleanSummary moment.summary ≠ []) (hkind : checkKind moment.kind = .ok kind)
    (hsource : bindText moment.source = .ok ())
    (htext : bindText (cleanSummary moment.summary) = .ok ())
    (hdup : ∀ r ∈ s.rows, isDuplicate moment.source (cleanSummary moment.summary) now r = false)
    (himportance : importanceThreshold ≤ s.importanceOf moment) :
    s.capture e now moment = .ok (some (s.lastId + 1), s.insert (s.newRow moment kind now)) := by
  have hnone : s.findRecentDuplicate e moment.source (cleanSummary moment.summary) now = none := by
    have hfilter : s.rows.filter (isDuplicate moment.source (cleanSummary moment.summary) now) =
        [] := by
      simpa using hdup
    have hperm := e.orderBy_perm newerFirst
      (s.rows.filter (isDuplicate moment.source (cleanSummary moment.summary) now))
    rw [hfilter] at hperm
    rw [Store.findRecentDuplicate, hfilter, hperm.eq_nil, List.head?_nil]
  simp only [Store.capture, hwrites, hkind, hsource, htext, hnone, if_neg hsummary,
    if_neg (not_lt.mpr himportance)]
  rfl

/-- Repetition only adds to a score. -/
theorem score_ge (valence intensity : ℤ) (ownerInitiated alert : Bool) (novelty : ℚ)
    (repetition : ℕ) : score valence intensity ownerInitiated alert novelty 0 ≤
      score valence intensity ownerInitiated alert novelty repetition := by
  have hboost : (0 : ℚ) ≤ min 0.10 (max 0 (repetition : ℚ) * 0.01) := by
    apply le_min (by norm_num)
    exact mul_nonneg (le_max_left _ _) (by norm_num)
  have hnone : min (0.10 : ℚ) (max 0 ((0 : ℕ) : ℚ) * 0.01) = 0 := by norm_num
  simp only [score, hnone]
  apply min_le_min_left
  linarith

/-- Every rule's fact is salient enough, however often it was stored before. -/
theorem rules_salient (h : rule ∈ rules) : importanceThreshold ≤ s.importanceOf rule.moment := by
  have hfirst : ∀ rule ∈ rules, importanceThreshold ≤
      score (clampSigned rule.valence) (clampUnsigned rule.intensity) false false 1 0 := by
    decide +kernel
  exact (hfirst rule h).trans (score_ge _ _ _ _ _ _)

/-- The turn of such a rule, long after everything stored, adds its fact. -/
theorem applyRule_recreates (hrule : rule ∈ rules) (hnew : s.Recreates rule)
    (hlate : ∀ r ∈ s.rows, isDuplicate (str "reflection") (cleanSummary rule.summary) now r = false) :
    ∃ kind, s.applyRule e rule now = .ok (1, s.insert (s.newRow rule.moment kind now)) := by
  obtain ⟨kind, hit, hr⟩ := reads_rules hrule
  obtain ⟨seen, hseen, hle⟩ := hnew.counted
  have hcapture : s.capture e now rule.moment = _ :=
    capture_new hnew.writes hr.summary hr.kind rfl hr.text hlate (rules_salient hrule)
  refine ⟨kind, ?_⟩
  simp only [Store.applyRule, hnew.unknown, hseen, hcapture, bind, Except.bind,
    if_neg (not_lt.mpr hle)]
  rfl

theorem Turn.count_le (h : Turn rule now s t) :
    count (sameMoment row) s.rows ≤ count (sameMoment row) t.rows := by
  cases h with
  | skip => exact le_refl _
  | bump r intensity => exact (count_bumpExisting fun _ _ => rfl).ge
  | store kind =>
    rw [Store.insert, count_insert]
    exact Nat.le_add_right _ _

theorem consolidate_count_le {numbered : List (ConsolidationRule × ℕ)} {clock : ℕ → ℚ} {k : ℕ}
    (hok : s.consolidate e clock numbered = .ok (k, t)) :
    count (sameMoment row) s.rows ≤ count (sameMoment row) t.rows := by
  induction numbered generalizing s k with
  | nil =>
    cases hok
    exact le_refl _
  | cons first rest ih =>
    obtain ⟨⟨created, u⟩, hturn, hok⟩ := bind_eq_ok.mp hok
    obtain ⟨⟨more, v⟩, hlater, hok⟩ := bind_eq_ok.mp hok
    cases hok
    exact (applyRule_turn hturn).count_le.trans (ih hlater)

/-- The rule is about to store the row's fact, and no row is recent enough to stop it. -/
structure Reviving (row : Row) (rule : ConsolidationRule) (now : ℚ) (s : Store) : Prop where
  derives : rule.Derives row
  recreates : s.Recreates rule
  late : ∀ r ∈ s.rows, isDuplicate (str "reflection") (cleanSummary rule.summary) now r = false

/-- The turn of another rule leaves it so, or has stored the fact already. -/
theorem Reviving.turn (h : Reviving row rule now s) (hrule : rule ∈ rules)
    (ht : Turn other now s t) :
    Reviving row rule now t ∨ count (sameMoment row) s.rows < count (sameMoment row) t.rows := by
  obtain ⟨hderives, hnew, hlate⟩ := h
  cases ht with
  | skip => exact .inl ⟨hderives, hnew, hlate⟩
  | bump r intensity =>
    refine .inl ⟨hderives, (recreates_update hrule marks_bump).mpr hnew, ?_⟩
    simp only [Store.bumpExisting, update, List.forall_mem_map]
    intro r hmem
    have hold := hlate r hmem
    split
    · exact hold
    · exact hold
  | store kind =>
    by_cases hsame : cleanSummary rule.summary = cleanSummary other.summary
    · right
      have hcounted : sameMoment row (s.newRow other.moment kind now) = true := by
        simp only [sameMoment, decide_eq_true_eq]
        exact ⟨hderives.1.symm, (hderives.2.trans hsame).symm⟩
      rw [Store.insert, count_insert, hcounted]
      exact Nat.lt_succ_self _
    · left
      obtain ⟨k, hit, hr⟩ := reads_rules hrule
      obtain ⟨hwrites, hunknown, hle⟩ := (recreates_iff hr).mp hnew
      refine ⟨hderives, (recreates_iff hr).mpr ⟨hwrites, ?_, ?_⟩, ?_⟩
      · intro r hmem hsummary
        rcases List.mem_append.mp hmem with hmem | hmem
        · exact hunknown r hmem hsummary
        · obtain rfl := List.mem_singleton.mp hmem
          exact absurd hsummary.symm hsame
      · rw [Store.insert, count_insert]
        exact Nat.le_add_right_of_le hle
      · intro r hmem
        rcases List.mem_append.mp hmem with hmem | hmem
        · exact hlate r hmem
        · obtain rfl := List.mem_singleton.mp hmem
          simp only [isDuplicate, decide_eq_false_iff_not]
          rintro ⟨-, hsummary, -⟩
          exact hsame hsummary.symm

theorem Reviving.consolidate (h : Reviving row rule now s)
    {numbered : List (ConsolidationRule × ℕ)} {k : ℕ} (hrules : ∀ entry ∈ numbered, entry.1 ∈ rules)
    {i : ℕ} (hmem : (rule, i) ∈ numbered)
    (hok : s.consolidate e (fun _ => now) numbered = .ok (k, t)) :
    count (sameMoment row) s.rows < count (sameMoment row) t.rows := by
  induction numbered generalizing s k with
  | nil => simp at hmem
  | cons first rest ih =>
    obtain ⟨hfirst, hrest⟩ := List.forall_mem_cons.mp hrules
    obtain ⟨⟨created, u⟩, hturn, hok⟩ := bind_eq_ok.mp hok
    obtain ⟨⟨more, v⟩, hlater, hok⟩ := bind_eq_ok.mp hok
    cases hok
    rcases List.mem_cons.mp hmem with rfl | hmem
    · obtain ⟨kind, hstored⟩ := applyRule_recreates (e := e) hfirst h.recreates h.late
      simp only at hturn
      rw [hstored] at hturn
      cases hturn
      have hcounted : sameMoment row (s.newRow rule.moment kind now) = true := by
        simp only [sameMoment, decide_eq_true_eq]
        exact ⟨h.derives.1.symm, h.derives.2.symm⟩
      have hadded : count (sameMoment row) (s.insert (s.newRow rule.moment kind now)).rows =
          count (sameMoment row) s.rows + 1 := by
        rw [Store.insert, count_insert, hcounted]
        rfl
      have hle : count (sameMoment row) (s.insert (s.newRow rule.moment kind now)).rows ≤
          count (sameMoment row) t.rows := consolidate_count_le hlater
      omega
    · have hturn := applyRule_turn hturn
      rcases h.turn (hrules _ (List.mem_cons_of_mem _ hmem)) hturn with hagain | hless
      · exact hturn.count_le.trans_lt (ih hagain hrest hmem hlater)
      · exact hless.trans_le (consolidate_count_le hlater)

/-- A row comes back exactly when what is left is evidence for a rule that derives it. -/
theorem staysForgotten_iff (e : Engine) (s : Store) (row : Row) :
    s.StaysForgotten e row ↔ ¬ ∃ rule ∈ rules, rule.Derives row ∧ s.Recreates rule := by
  constructor
  · rintro hstays ⟨rule, hrule, hderives, hnew⟩
    obtain ⟨latest, hlatest⟩ := (s.rows.map (·.createdAt)).toFinset.exists_le
    have hlate : ∀ r ∈ s.rows, isDuplicate (str "reflection") (cleanSummary rule.summary)
        (latest + dedupeWindowSeconds + 1) r = false := by
      intro r hr
      have hle : r.createdAt ≤ latest := by
        apply hlatest
        simpa using ⟨r, hr, rfl⟩
      simp only [isDuplicate, decide_eq_false_iff_not]
      rintro ⟨-, -, hrecent⟩
      linarith
    have hisOk : (s.consolidateMemory e fun _ => latest + dedupeWindowSeconds + 1).isOk = true :=
      consolidateMemory_isOk
    obtain ⟨⟨k, t⟩, hok⟩ := exists_of_isOk hisOk
    obtain ⟨i, hi⟩ := List.mem_iff_getElem?.mp hrule
    have hmem : (rule, i) ∈ rules.zipIdx := List.mk_mem_zipIdx_iff_getElem?.mpr hi
    have hreviving : Reviving row rule (latest + dedupeWindowSeconds + 1) s :=
      ⟨hderives, hnew, hlate⟩
    have hless := hreviving.consolidate (fun _ => mem_rules_of_zipIdx) hmem hok
    have hsame := hstays [.consolidateMemory fun _ => latest + dedupeWindowSeconds + 1]
      (by simp [Call.Background])
    simp only [finalState_cons, finalState_nil, perform, settle, hok] at hsame
    omega
  · intro hnone calls hcalls
    have hsteady : Steady row (count (sameMoment row) s.rows) s :=
      ⟨rfl, fun rule hrule hderives hnew => hnone ⟨rule, hrule, hderives, hnew⟩⟩
    exact (hsteady.run calls hcalls).count

/-- The row is deleted by its id, or by a filter that finds it. -/
def Store.Forgets (s : Store) (row : Row) (t : Store) : Prop :=
  row ∈ s.rows ∧ ((∃ n, s.forget row.id = .ok (n, t)) ∨
    ∃ f n, s.forgetBy f = .ok (n, t) ∧ row ∉ t.rows)

theorem Store.Forgets.notMem (h : s.Forgets row t) : row ∉ t.rows := by
  obtain ⟨-, ⟨n, hforget⟩ | ⟨f, n, -, hout⟩⟩ := h
  · obtain ⟨-, -, hdeleted⟩ := bind_eq_ok.mp hforget
    cases hdeleted
    simp [delete]
  · exact hout

/-- The two apologies. -/
def apology (n : ℕ) : Moment where
  source := str "direct_message"
  summary := str s!"sorry, number {n}"
  tags := some [str "apology"]
  valence := 40
  intensity := 55
  ownerInitiated := true

def apologyRow (id : ℕ) : Row where
  id := id
  createdAt := id
  source := str "direct_message"
  kind := .episodic
  summary := str s!"sorry, number {id}"
  tags := encodeTags (some [str "apology"])
  valence := 40
  intensity := 55
  importance := 53.5 + id
  lastRecalled := id
  recallCount := 0

/-- The second rule's fact, as consolidation stores it. -/
def apologyFact : Row where
  id := 3
  createdAt := 3
  source := str "reflection"
  kind := .semantic
  summary := str "Owner apologizes after rough moments; apologies help Shiro recover."
  tags := encodeTags (some [str "owner", str "apology", str "repair"])
  valence := 45
  intensity := 50
  importance := 143 / 4
  lastRecalled := 3
  recallCount := 0

/-- Two apologies and the fact derived from them. -/
def apologeticStore : Store where
  rows := [apologyRow 1, apologyRow 2, apologyFact]
  lastId := 3

/-- They are the rows that `capture` stores of two apologies, and `consolidate_memory` after. -/
example : ([1, 2].foldlM (fun (s : Store) (n : ℕ) =>
      (s.capture (.stable fun _ => 1) n (apology n)).toOption.map Prod.snd) {}).bind (fun s =>
    (s.consolidateMemory (.stable fun _ => 1) fun _ => 3).toOption.map (·.2.rows)) =
      some apologeticStore.rows := by decide +kernel

/-- The same store after the fact was forgotten. -/
def forgivingStore : Store := { apologeticStore with rows := [apologyRow 1, apologyRow 2] }

theorem apologeticStore_forgets : apologeticStore.Forgets apologyFact forgivingStore := by
  refine ⟨by simp [apologeticStore], .inl ⟨1, ?_⟩⟩
  simp [Store.forget, bindInt, delete, count, apologeticStore, forgivingStore, apologyRow,
    apologyFact, bind, Except.bind]

theorem forgivingStore_recreates :
    ∃ rule ∈ rules, rule.Derives apologyFact ∧ forgivingStore.Recreates rule := by
  refine ⟨rules[1], by simp [rules], ⟨rfl, by decide +kernel⟩, rfl, ?_, 2, ?_, by decide +kernel⟩
  · decide +kernel
  · decide +kernel

/-- A forgotten row is gone, and stays away for good unless it is the fact of a rule for which
the rows left are still evidence enough. -/
theorem forgotten_stays_iff (e : Engine) (s t : Store) (row : Row) (h : s.Forgets row t) :
    row ∉ t.rows ∧
      (t.StaysForgotten e row ↔ ¬ ∃ rule ∈ rules, rule.Derives row ∧ t.Recreates rule) :=
  ⟨h.notMem, staysForgotten_iff e t row⟩

theorem forgotten_stays_iff_apology :
    apologyFact ∉ forgivingStore.rows ∧
      (forgivingStore.StaysForgotten (.stable fun _ => 1) apologyFact ↔
        ¬ ∃ rule ∈ rules, rule.Derives apologyFact ∧ forgivingStore.Recreates rule) :=
  forgotten_stays_iff (.stable fun _ => 1) apologeticStore forgivingStore apologyFact
    apologeticStore_forgets

/-- While two apologies are remembered, the fact they led to is stored again after every
`forget`. -/
theorem forgotten_fact_comes_back :
    apologeticStore.Forgets apologyFact forgivingStore ∧
      ¬ forgivingStore.StaysForgotten (.stable fun _ => 1) apologyFact :=
  ⟨apologeticStore_forgets, fun hstays =>
    (staysForgotten_iff _ _ _).mp hstays forgivingStore_recreates⟩

end Hologotchi.Memory
