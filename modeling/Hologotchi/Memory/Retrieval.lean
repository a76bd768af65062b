import Hologotchi.Memory.Keys
import Hologotchi.Library.Ranking
import Mathlib.Tactic.Linarith

/-! How good the memories are that a retrieval returns. -/
namespace Hologotchi.Memory

open Python Library Library.Like Library.Table Library.Fallible

variable {e : Engine} {s t : Store} {q : Query} {now : ℚ} {row kept : Row} {rows : List Row}
  {records : List MemoryRecord}

/-- The rows `_search_rows` selects from, its `LIMIT` aside. -/
def Query.hits (e : Engine) (q : Query) (row : Row) : Bool :=
  !q.tokens.isEmpty && match e.fullText with
    | some index => (index q.tokens).any (· row)
    | none => q.tokens.any fun token => like (within token) row.summary

/-- The score a row deserves. -/
def Query.scoreOf (e : Engine) (q : Query) (now : ℚ) (row : Row) : ℚ :=
  effectiveImportance e row now + if q.hits e row then textMatchBonus else 0

/-- The other rows that the preselection may put before this one: of at least its stored
importance, and matching if it does. -/
def Query.rivals (e : Engine) (q : Query) (s : Store) (row : Row) : List Row :=
  s.rows.filter fun r =>
    r.id ≠ row.id ∧ row.importance ≤ r.importance ∧ (q.hits e row → q.hits e r)

/-- There are enough rivals to fill every place of the preselection. -/
def Query.CrowdedOut (e : Engine) (q : Query) (s : Store) (row : Row) : Prop :=
  q.pool ≤ (q.rivals e s row).length

def byImportance (a b : Row) : Bool := b.importance ≤ a.importance

theorem byImportance_sorted (rows : List Row) :
    (e.orderBy byImportance rows).Pairwise fun a b => b.importance ≤ a.importance := by
  have htrans (a b c : Row) : byImportance a b → byImportance b c → byImportance a c := by
    simp only [byImportance, decide_eq_true_eq]
    exact fun hab hbc => hbc.trans hab
  have htotal (a b : Row) : byImportance a b || byImportance b a := by
    simpa [byImportance] using le_total b.importance a.importance
  exact (e.orderBy_sorted byImportance htrans htotal rows).imp (by simp [byImportance])

theorem strongerFirst_sorted (rows : List Row) :
    (e.orderBy strongerFirst rows).Pairwise fun a b => b.importance ≤ a.importance := by
  have htrans (a b c : Row) : strongerFirst a b → strongerFirst b c → strongerFirst a c := by
    simp only [strongerFirst, decide_eq_true_eq]
    rintro (hab | ⟨hab, habt⟩) (hbc | ⟨hbc, hbct⟩)
    · exact .inl (hbc.trans hab)
    · exact .inl (hbc ▸ hab)
    · exact .inl (hab ▸ hbc)
    · exact .inr ⟨hbc.trans hab, hbct.trans habt⟩
  have htotal (a b : Row) : strongerFirst a b || strongerFirst b a := by
    simp only [strongerFirst, Bool.or_eq_true, decide_eq_true_eq]
    rcases lt_trichotomy a.importance b.importance with h | h | h
    · exact .inr (.inl h)
    · rcases le_total b.createdAt a.createdAt with ht | ht
      · exact .inl (.inr ⟨h.symm, ht⟩)
      · exact .inr (.inr ⟨h, ht⟩)
    · exact .inl (.inl h)
  refine (e.orderBy_sorted strongerFirst htrans htotal rows).imp fun {a b} hab => ?_
  simp only [strongerFirst, decide_eq_true_eq] at hab
  rcases hab with hab | ⟨hab, -⟩
  · exact hab.le
  · exact hab.le

/-- The rows found by text: the first matching ones by stored importance. -/
def Store.textRows (e : Engine) (s : Store) (q : Query) : List Row :=
  if q.tokens = [] then [] else s.searchRows e q.tokens q.pool

theorem textRows_eq : s.textRows e q =
    (e.orderBy byImportance (s.rows.filter (q.hits e))).take q.pool := by
  have hnone (h : ∀ row, q.hits e row = false) :
      (e.orderBy byImportance (s.rows.filter (q.hits e))).take q.pool = [] := by
    have hfilter : s.rows.filter (q.hits e) = [] := by simp [h]
    have hperm := e.orderBy_perm byImportance (s.rows.filter (q.hits e))
    rw [hfilter] at hperm ⊢
    simp [hperm.eq_nil]
  unfold Store.textRows Store.searchRows
  by_cases htokens : q.tokens = []
  · rw [if_pos htokens, hnone fun row => by simp [Query.hits, htokens]]
  · rw [if_neg htokens]
    cases hfullText : e.fullText with
    | none =>
      have hhits : q.hits e =
          fun row => q.tokens.any fun token => like (within token) row.summary := by
        funext row
        simp [Query.hits, htokens, hfullText]
      rw [hhits]
      rfl
    | some index =>
      cases hindex : index q.tokens with
      | none =>
        rw [hnone fun row => by simp [Query.hits, hfullText, hindex]]
        simp [hindex]
      | some hit =>
        have hhits : q.hits e = hit := by
          funext row
          simp [Query.hits, htokens, hfullText, hindex]
        rw [hhits]
        simp only [hindex]
        rfl

/-- The rows that are ranked when no tag is given. -/
def Store.baseRows (e : Engine) (s : Store) (q : Query) : List Row :=
  s.recentStrong e q.pool ++ s.textRows e q

theorem mem_of_mem_textRows (h : row ∈ s.textRows e q) : row ∈ s.rows ∧ q.hits e row = true := by
  rw [textRows_eq] at h
  have hmem := (e.orderBy_perm _ _).mem_iff.mp (List.mem_of_mem_take h)
  exact List.mem_filter.mp hmem

theorem mem_of_mem_recentStrong (h : row ∈ s.recentStrong e q.pool) : row ∈ s.rows :=
  (e.orderBy_perm _ _).mem_iff.mp (List.mem_of_mem_take h)

/-- A matching row that the text search leaves out is crowded out. -/
theorem mem_textRows (hids : s.rows.Pairwise (·.id ≠ ·.id)) (hrow : row ∈ s.rows)
    (hhit : q.hits e row = true) (hroom : ¬ q.CrowdedOut e s row) : row ∈ s.textRows e q := by
  by_contra hout
  rw [textRows_eq] at hout
  have hperm := e.orderBy_perm byImportance (s.rows.filter (q.hits e))
  have hnodup := hperm.nodup_iff.mpr ((nodup_of_distinct_ids hids).filter (q.hits e))
  apply hroom
  apply le_length_of_notMem_take (byImportance_sorted _) hnodup _ _ hout
  · intro x hx hne himportance
    have hmem := List.mem_filter.mp (hperm.mem_iff.mp hx)
    have hid : x.id ≠ row.id := fun h => hne (eq_of_id_eq hids hmem.1 hrow h)
    simp [hid, himportance, hmem.2]
  · exact fun x hx => (List.mem_filter.mp (hperm.mem_iff.mp hx)).1
  · exact hperm.mem_iff.mpr (List.mem_filter.mpr ⟨hrow, hhit⟩)

/-- So is any other row that the strongest leave out. -/
theorem mem_recentStrong (hids : s.rows.Pairwise (·.id ≠ ·.id)) (hrow : row ∈ s.rows)
    (hhit : q.hits e row = false) (hroom : ¬ q.CrowdedOut e s row) :
    row ∈ s.recentStrong e q.pool := by
  by_contra hout
  have hperm := e.orderBy_perm strongerFirst s.rows
  have hnodup := hperm.nodup_iff.mpr (nodup_of_distinct_ids hids)
  apply hroom
  apply le_length_of_notMem_take (strongerFirst_sorted _) hnodup _ _ hout
  · intro x hx hne himportance
    have hid : x.id ≠ row.id := fun h => hne (eq_of_id_eq hids (hperm.mem_iff.mp hx) hrow h)
    simp [hid, himportance, hhit]
  · exact fun x hx => hperm.mem_iff.mp hx
  · exact hperm.mem_iff.mpr hrow

/-- The score a retrieval without tags goes by: only the rows found by text get the bonus. -/
def Store.valueOf (e : Engine) (s : Store) (q : Query) (now : ℚ) (row : Row) : ℚ :=
  effectiveImportance e row now +
    if ((s.textRows e q).map (·.id)).contains row.id then textMatchBonus else 0

theorem ranked_eq (htags : normalizeTags q.tags = []) : s.ranked e now q =
    ((candidates (s.baseRows e q)).mergeSort fun a b =>
      s.valueOf e q now b ≤ s.valueOf e q now a).take q.limit.toNat := by
  simp only [Store.ranked, if_pos htags]
  rfl

theorem valueOf_le_scoreOf (hids : s.rows.Pairwise (·.id ≠ ·.id)) (hrow : row ∈ s.rows) :
    s.valueOf e q now row ≤ q.scoreOf e now row := by
  have hbonus : (0 : ℚ) ≤ textMatchBonus := by norm_num [textMatchBonus]
  unfold Store.valueOf Query.scoreOf
  split
  next hfound =>
    obtain ⟨r, hr, hid⟩ := List.mem_map.mp (List.contains_iff_mem.mp hfound)
    obtain ⟨hmem, hhit⟩ := mem_of_mem_textRows hr
    rw [if_pos (eq_of_id_eq hids hmem hrow hid ▸ hhit)]
  next =>
    split <;> linarith

/-- A row that is not crowded out is ranked, and by the score it deserves. -/
theorem valueOf_eq_scoreOf (hids : s.rows.Pairwise (·.id ≠ ·.id)) (hrow : row ∈ s.rows)
    (hroom : ¬ q.CrowdedOut e s row) :
    row ∈ s.baseRows e q ∧ s.valueOf e q now row = q.scoreOf e now row := by
  cases hhit : q.hits e row with
  | true =>
    have hfound := mem_textRows hids hrow hhit hroom
    have hid : ((s.textRows e q).map (·.id)).contains row.id :=
      List.contains_iff_mem.mpr (List.mem_map_of_mem hfound)
    refine ⟨List.mem_append_right _ hfound, ?_⟩
    rw [Store.valueOf, Query.scoreOf, if_pos hid, if_pos hhit]
  | false =>
    have hstrong := mem_recentStrong hids hrow hhit hroom
    refine ⟨List.mem_append_left _ hstrong, ?_⟩
    have hid : ¬ ((s.textRows e q).map (·.id)).contains row.id := by
      intro hfound
      obtain ⟨r, hr, hid⟩ := List.mem_map.mp (List.contains_iff_mem.mp hfound)
      obtain ⟨hmem, hrhit⟩ := mem_of_mem_textRows hr
      rw [eq_of_id_eq hids hmem hrow hid, hhit] at hrhit
      contradiction
    rw [Store.valueOf, Query.scoreOf, if_neg hid, hhit, if_neg Bool.false_ne_true]

theorem valueOf_sorted (rows : List Row) :
    (rows.mergeSort fun a b => s.valueOf e q now b ≤ s.valueOf e q now a).Pairwise
      fun a b => s.valueOf e q now b ≤ s.valueOf e q now a := by
  have htrans (a b c : Row) : decide (s.valueOf e q now b ≤ s.valueOf e q now a) →
      decide (s.valueOf e q now c ≤ s.valueOf e q now b) →
      decide (s.valueOf e q now c ≤ s.valueOf e q now a) := by
    simp only [decide_eq_true_eq]
    exact fun hab hbc => hbc.trans hab
  have htotal (a b : Row) : decide (s.valueOf e q now b ≤ s.valueOf e q now a) ||
      decide (s.valueOf e q now a ≤ s.valueOf e q now b) := by
    simpa using le_total _ _
  exact (List.pairwise_mergeSort htrans htotal rows).imp (by simp)

theorem candidates_ids (rows : List Row) : (candidates rows).Pairwise (·.id ≠ ·.id) := by
  induction rows using List.reverseRecOn with
  | nil => exact .nil
  | append_singleton rows last ih =>
    rw [candidates_concat]
    split
    next =>
      have hid (r : Row) : (if r.id = last.id then last else r).id = r.id := by
        split <;> simp_all
      refine List.pairwise_map.mpr (ih.imp fun {a b} hne => ?_)
      rwa [hid, hid]
    next hnew =>
      refine List.pairwise_append.mpr ⟨ih, List.pairwise_singleton _ _, ?_⟩
      simpa using hnew

/-- Where the id tells the row, every row that is put in is a candidate. -/
theorem mem_candidates (h : ∀ a ∈ rows, ∀ b ∈ rows, a.id = b.id → a = b) (hrow : row ∈ rows) :
    row ∈ candidates rows := by
  induction rows using List.reverseRecOn with
  | nil => simp at hrow
  | append_singleton rows last ih =>
    have hold (hmem : row ∈ rows) : row ∈ candidates rows := by
      refine ih (fun a ha b hb => ?_) hmem
      exact h a (List.mem_append_left _ ha) b (List.mem_append_left _ hb)
    have hlast : last ∈ rows ++ [last] := by simp
    rw [candidates_concat]
    split
    next hknown =>
      obtain ⟨r, hr, hid⟩ := List.any_eq_true.mp hknown
      have hid : r.id = last.id := by simpa using hid
      rcases List.mem_append.mp hrow with hmem | hmem
      · refine List.mem_map.mpr ⟨row, hold hmem, ?_⟩
        split
        next heq => exact h last hlast row hrow heq.symm
        next => rfl
      · obtain rfl := List.mem_singleton.mp hmem
        exact List.mem_map.mpr ⟨r, hr, if_pos hid⟩
    next =>
      rcases List.mem_append.mp hrow with hmem | hmem
      · exact List.mem_append_left _ (hold hmem)
      · exact List.mem_append_right _ hmem

theorem mem_of_mem_baseRows (h : row ∈ s.baseRows e q) : row ∈ s.rows := by
  rcases List.mem_append.mp h with h | h
  · exact mem_of_mem_recentStrong h
  · exact (mem_of_mem_textRows h).1

theorem mem_candidates_iff (hids : s.rows.Pairwise (·.id ≠ ·.id)) :
    row ∈ candidates (s.baseRows e q) ↔ row ∈ s.baseRows e q := by
  refine ⟨mem_of_mem_candidates, mem_candidates fun a ha b hb hid => ?_⟩
  exact eq_of_id_eq hids (mem_of_mem_baseRows ha) (mem_of_mem_baseRows hb) hid

/-- What is left out of the result scores no more than what is in it, unless the preselection
had no place for it. -/
theorem ranked_dominates (hids : s.rows.Pairwise (·.id ≠ ·.id)) (htags : normalizeTags q.tags = [])
    (hrow : row ∈ s.rows) (hout : row ∉ s.ranked e now q) (hkept : kept ∈ s.ranked e now q) :
    q.scoreOf e now row ≤ q.scoreOf e now kept ∨ q.CrowdedOut e s row := by
  by_cases hroom : q.CrowdedOut e s row
  · exact .inr hroom
  · left
    obtain ⟨hbase, hvalue⟩ : row ∈ s.baseRows e q ∧ s.valueOf e q now row = q.scoreOf e now row :=
      valueOf_eq_scoreOf hids hrow hroom
    rw [ranked_eq htags] at hout hkept
    have hcandidate := (mem_candidates_iff hids).mpr hbase
    have hbefore :=
      before_of_mem_take (valueOf_sorted _) hkept (List.mem_mergeSort.mpr hcandidate) hout
    have hkeptbase := mem_of_mem_candidates (List.mem_mergeSort.mp (List.mem_of_mem_take hkept))
    have hle : s.valueOf e q now kept ≤ q.scoreOf e now kept :=
      valueOf_le_scoreOf hids (mem_of_mem_baseRows hkeptbase)
    linarith

/-- A result with places left holds every row of the store. -/
theorem ranked_exhausts (hids : s.rows.Pairwise (·.id ≠ ·.id)) (htags : normalizeTags q.tags = [])
    (hshort : (s.ranked e now q).length < q.limit) (hrow : row ∈ s.rows) :
    row ∈ s.ranked e now q := by
  have hpool : q.limit.toNat ≤ q.pool := by
    simp only [Query.pool]
    omega
  by_contra hout
  have hperm := e.orderBy_perm strongerFirst s.rows
  rw [ranked_eq htags] at hshort hout
  by_cases hcandidate : row ∈ candidates (s.baseRows e q)
  · have hfull := length_take_of_notMem (List.mem_mergeSort.mpr hcandidate) hout
    omega
  · have hstrong : row ∉ s.recentStrong e q.pool := by
      intro hmem
      exact hcandidate ((mem_candidates_iff hids).mpr (List.mem_append_left _ hmem))
    have hfull := length_take_of_notMem (hperm.mem_iff.mpr hrow) hstrong
    have hnodup : (s.recentStrong e q.pool).Nodup :=
      (hperm.nodup_iff.mpr (nodup_of_distinct_ids hids)).sublist (List.take_sublist _ _)
    have hle := length_le_of_forall_mem (p := fun _ => true) hnodup fun r hr =>
      ⟨(mem_candidates_iff hids).mpr (List.mem_append_left (s.textRows e q) hr), rfl⟩
    have hlength : (s.recentStrong e q.pool).length = q.pool := hfull
    simp only [List.length_take, List.length_mergeSort] at hshort
    simp only [List.filter_true] at hle
    omega

theorem ranked_ids (htags : normalizeTags q.tags = []) :
    (s.ranked e now q).Pairwise (·.id ≠ ·.id) := by
  rw [ranked_eq htags]
  have hperm := List.mergeSort_perm (candidates (s.baseRows e q)) fun a b =>
    s.valueOf e q now b ≤ s.valueOf e q now a
  refine List.Pairwise.sublist (List.take_sublist _ _) ?_
  exact (hperm.pairwise_iff fun hne => Ne.symm hne).mpr (candidates_ids _)

theorem mem_of_mem_ranked (htags : normalizeTags q.tags = []) (h : row ∈ s.ranked e now q) :
    row ∈ s.rows := by
  rw [ranked_eq htags] at h
  have hcandidate := List.mem_mergeSort.mp (List.mem_of_mem_take h)
  exact mem_of_mem_baseRows (mem_of_mem_candidates hcandidate)

theorem retrieve_records (hlimit : 1 ≤ q.limit) (h : s.retrieve e now q = .ok (records, t)) :
    records = (s.ranked e now q).map (·.toRecord) := by
  unfold Store.retrieve at h
  rw [if_neg (by omega)] at h
  obtain ⟨-, -, h⟩ := bind_eq_ok.mp h
  split at h
  · exact ((Prod.mk.injEq ..).mp (Except.ok.inj h)).1.symm
  · exact ((Prod.mk.injEq ..).mp (Except.ok.inj h)).1.symm

/-- A retrieval within the integers of the engine succeeds. -/
theorem retrieve_isOk (hpool : q.pool < 2 ^ 63) : (s.retrieve e now q).isOk = true := by
  have hbind : (bindInt q.pool).isOk = true := by
    have hrange : -2 ^ 63 ≤ (q.pool : ℤ) ∧ (q.pool : ℤ) < 2 ^ 63 := by omega
    rw [bindInt, if_pos hrange]
    rfl
  unfold Store.retrieve
  split
  · rfl
  · refine isOk_bind hbind fun _ => ?_
    split <;> rfl

/-- Halves at one halflife, as `0.5 ** x` does. -/
def hyperbolic : Engine := .stable fun x => (1 + |x|)⁻¹

/-- What was praised long ago, one thing a second. -/
def praise (n : ℕ) : Moment where
  source := str "direct_message"
  summary := str s!"old praise {n}"
  valence := 100
  intensity := 100
  ownerInitiated := true
  alert := true

def staleRow (n : ℕ) : Row where
  id := n + 1
  createdAt := n
  source := str "direct_message"
  kind := .episodic
  summary := str s!"old praise {n}"
  tags := []
  valence := 100
  intensity := 100
  importance := 100
  lastRecalled := n
  recallCount := 0

/-- Three days after the last praise. -/
def crowdedNow : ℚ := retentionHalflifeSeconds + 19

def warning : Moment where
  source := str "important_alert"
  summary := str "fresh alert"
  valence := -50
  intensity := 75
  alert := true

def freshRow : Row where
  id := 21
  createdAt := crowdedNow
  source := str "important_alert"
  kind := .episodic
  summary := str "fresh alert"
  tags := []
  valence := -50
  intensity := 75
  importance := 60
  lastRecalled := crowdedNow
  recallCount := 0

/-- Twenty rows of importance 100, three days old, and one of importance 60, just stored. -/
def crowdedStore : Store where
  rows := (List.range 20).map staleRow ++ [freshRow]
  lastId := 21

/-- They are the rows that `capture` stores of these moments. -/
example : ((((List.range 20).map fun n : ℕ => ((n : ℚ), praise n)) ++
    [(crowdedNow, warning)]).foldlM (fun (s : Store) (p : ℚ × Moment) =>
      (s.capture hyperbolic p.1 p.2).toOption.map Prod.snd) {}).map (·.rows) =
        some crowdedStore.rows := by decide +kernel

theorem crowdedStore_ids : crowdedStore.rows.Pairwise (·.id ≠ ·.id) := by decide +kernel

theorem crowdedStore_answers :
    (crowdedStore.retrieve hyperbolic crowdedNow { limit := 1 }).isOk = true :=
  retrieve_isOk (by decide)

theorem stale_of_mem_crowdedStore (h : row ∈ crowdedStore.rows) :
    row = freshRow ∨ row.importance = 100 ∧ row.createdAt ≤ 19 ∧ row.lastRecalled ≤ 19 := by
  rcases List.mem_append.mp h with h | h
  · obtain ⟨n, hn, rfl⟩ := List.mem_map.mp h
    have hle : (n : ℚ) ≤ 19 := by
      have hlt := List.mem_range.mp hn
      exact_mod_cast Nat.le_of_lt_succ hlt
    exact .inr ⟨rfl, hle, hle⟩
  · exact .inl (List.mem_singleton.mp h)

theorem crowdedStore_fresh_out :
    freshRow ∉ crowdedStore.ranked hyperbolic crowdedNow { limit := 1 } := by
  intro h
  have hperm := hyperbolic.orderBy_perm strongerFirst crowdedStore.rows
  have hnodup : (freshRow :: (List.range 20).map staleRow).Nodup :=
    List.perm_append_comm.nodup_iff.mp (nodup_of_distinct_ids crowdedStore_ids)
  have hout : freshRow ∉ (hyperbolic.orderBy strongerFirst crowdedStore.rows).take 20 := by
    refine notMem_take (strongerFirst_sorted _) hnodup ?_ (by simp)
    intro r hr
    obtain ⟨n, -, rfl⟩ := List.mem_map.mp hr
    refine ⟨hperm.mem_iff.mpr (List.mem_append_left _ hr), ?_⟩
    norm_num [staleRow, freshRow]
  rw [ranked_eq rfl] at h
  have hbase := mem_of_mem_candidates (List.mem_mergeSort.mp (List.mem_of_mem_take h))
  rcases List.mem_append.mp hbase with hstrong | htext
  · exact hout hstrong
  · simp [Store.textRows, Query.tokens] at htext

theorem hyperbolic_decays : hyperbolic.decay 0 = 1 ∧ (∀ x, 0 < hyperbolic.decay x) ∧
    ∀ x y, 0 ≤ x → x < y → hyperbolic.decay y < hyperbolic.decay x := by
  refine ⟨by norm_num [hyperbolic, Engine.stable], fun x => ?_, fun x y hx hxy => ?_⟩
  · have habs := abs_nonneg x
    exact inv_pos.mpr (by linarith)
  · have hy := hx.trans hxy.le
    simp only [hyperbolic, Engine.stable, abs_of_nonneg hx, abs_of_nonneg hy]
    apply inv_strictAnti₀ <;> linarith

/-- What is that old has lost half of its importance. -/
theorem stale_importance (himportance : row.importance = 100) (hcreated : row.createdAt ≤ 19)
    (hrecalled : row.lastRecalled ≤ 19) : effectiveImportance hyperbolic row crowdedNow ≤ 50 := by
  have hage : retentionHalflifeSeconds ≤ max 0 (crowdedNow - max row.createdAt row.lastRecalled) := by
    have hanchor : max row.createdAt row.lastRecalled ≤ 19 := max_le hcreated hrecalled
    rw [crowdedNow]
    exact le_max_of_le_right (by linarith)
  have hhalflife : (0 : ℚ) < retentionHalflifeSeconds := by norm_num [retentionHalflifeSeconds]
  have hperiods := (one_le_div₀ hhalflife).mpr hage
  simp only [effectiveImportance, himportance, hyperbolic, Engine.stable]
  rw [abs_of_nonneg (zero_le_one.trans hperiods)]
  have hhalf := inv_anti₀ (by norm_num : (0 : ℚ) < 2) (by linarith : (2 : ℚ) ≤ 1 +
    max 0 (crowdedNow - max row.createdAt row.lastRecalled) / retentionHalflifeSeconds)
  linarith

/-- The rows a retrieval should return. A row left out scores no more than one returned, unless
the preselection by stored importance had no place for it. Fewer than `limit` are returned only
when the store has no others. -/
structure Best (e : Engine) (s : Store) (now : ℚ) (q : Query) (rows : List Row) : Prop where
  distinct : rows.Pairwise (·.id ≠ ·.id)
  bounded : rows.length ≤ q.limit
  stored : ∀ row ∈ rows, row ∈ s.rows
  dominates : ∀ row ∈ s.rows, row ∉ rows → ∀ kept ∈ rows,
    q.scoreOf e now row ≤ q.scoreOf e now kept ∨ q.CrowdedOut e s row
  exhausts : rows.length < q.limit → ∀ row ∈ s.rows, row ∈ rows

/-- A retrieval without tags returns the best rows. -/
theorem retrieve_best (e : Engine) (s : Store) (now : ℚ) (q : Query)
    (hids : s.rows.Pairwise (·.id ≠ ·.id)) (htags : normalizeTags q.tags = [])
    (hlimit : 1 ≤ q.limit) (records : List MemoryRecord) (t : Store)
    (h : s.retrieve e now q = .ok (records, t)) :
    ∃ rows : List Row, records = rows.map (·.toRecord) ∧ Best e s now q rows := by
  refine ⟨s.ranked e now q, retrieve_records hlimit h, ?_⟩
  exact {
    distinct := ranked_ids htags
    bounded := by
      rw [ranked_eq htags, List.length_take]
      omega
    stored := fun _ => mem_of_mem_ranked htags
    dominates := fun _ hrow hout _ => ranked_dominates hids htags hrow hout
    exhausts := fun hshort _ => ranked_exhausts hids htags hshort }

/-- The one memory asked for of a crowded store. -/
theorem retrieve_best_crowded :
    ∃ records t, crowdedStore.retrieve hyperbolic crowdedNow { limit := 1 } =
        .ok (records, t) ∧
      ∃ rows : List Row, records = rows.map (·.toRecord) ∧
        Best hyperbolic crowdedStore crowdedNow { limit := 1 } rows := by
  obtain ⟨⟨records, t⟩, hretrieve⟩ := exists_of_isOk crowdedStore_answers
  exact ⟨records, t, hretrieve, retrieve_best hyperbolic crowdedStore crowdedNow
    { limit := 1 } crowdedStore_ids rfl (by decide) records t hretrieve⟩

/-- One memory is asked for. The one returned scores 50 at most, the fresh one left out 60. -/
theorem retrieve_misses_fresh :
    (hyperbolic.decay 0 = 1 ∧ (∀ x, 0 < hyperbolic.decay x) ∧
      ∀ x y, 0 ≤ x → x < y → hyperbolic.decay y < hyperbolic.decay x) ∧
    crowdedStore.rows.Pairwise (·.id ≠ ·.id) ∧
    ∃ records t, crowdedStore.retrieve hyperbolic crowdedNow { limit := 1 } =
        .ok (records, t) ∧ freshRow ∈ crowdedStore.rows ∧ freshRow.toRecord ∉ records ∧
      ∃ kept ∈ crowdedStore.rows, kept.toRecord ∈ records ∧
        Query.scoreOf hyperbolic { limit := 1 } crowdedNow kept <
          Query.scoreOf hyperbolic { limit := 1 } crowdedNow freshRow := by
  refine ⟨hyperbolic_decays, crowdedStore_ids, ?_⟩
  obtain ⟨⟨records, t⟩, hretrieve⟩ := exists_of_isOk crowdedStore_answers
  have hrecords := retrieve_records (by decide) hretrieve
  have hfresh : freshRow ∈ crowdedStore.rows := List.mem_append_right _ (List.mem_singleton_self _)
  refine ⟨records, t, hretrieve, hfresh, ?_, ?_⟩
  · rw [hrecords]
    intro h
    obtain ⟨r, hr, heq⟩ := List.mem_map.mp h
    have hid : r.id = freshRow.id := congrArg MemoryRecord.id heq
    have hrow := eq_of_id_eq crowdedStore_ids (mem_of_mem_ranked rfl hr) hfresh hid
    exact crowdedStore_fresh_out (hrow ▸ hr)
  · have hsome : crowdedStore.ranked hyperbolic crowdedNow { limit := 1 } ≠ [] := by
      intro hnil
      have hall := ranked_exhausts (e := hyperbolic) (q := { limit := 1 }) crowdedStore_ids rfl
        (by rw [hnil]; decide) hfresh
      exact crowdedStore_fresh_out hall
    obtain ⟨kept, hkept⟩ := List.exists_mem_of_ne_nil _ hsome
    have hrow := mem_of_mem_ranked rfl hkept
    refine ⟨kept, hrow, hrecords ▸ List.mem_map_of_mem hkept, ?_⟩
    rcases stale_of_mem_crowdedStore hrow with rfl | ⟨himportance, hcreated, hrecalled⟩
    · exact absurd hkept crowdedStore_fresh_out
    · have hstale : effectiveImportance hyperbolic kept crowdedNow ≤ 50 :=
        stale_importance himportance hcreated hrecalled
      have hnew : effectiveImportance hyperbolic freshRow crowdedNow = 60 := by
        norm_num [effectiveImportance, freshRow, hyperbolic, Engine.stable]
      rw [Query.scoreOf, Query.scoreOf, hnew]
      simp only [Query.hits, Query.tokens]
      norm_num
      linarith

end Hologotchi.Memory
