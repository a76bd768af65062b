import Hologotchi.Library.Fallible
import Hologotchi.Library.Like
import Hologotchi.Library.Table
import Hologotchi.Memory.Tags

/-! The memory store of the host (`host/memory.py`): the table of memories and the statements
that read and write it. Times and importances are exact. -/
namespace Hologotchi.Memory

open Python Library.Like Library.Table

def importanceThreshold : ℚ := 25
def recallBump : ℚ := 3
def recallCooldownSeconds : ℚ := 300
def textMatchBonus : ℚ := 60
def retentionHalflifeSeconds : ℚ := 3 * 24 * 3600
def dedupeWindowSeconds : ℚ := 6 * 3600
def spontaneousCallbackMinAgeSeconds : ℚ := 24 * 3600
def spontaneousCallbackCooldownSeconds : ℚ := 6 * 3600

inductive Kind
  | episodic
  | semantic
  | affect
  deriving DecidableEq, Repr

def Kind.text : Kind → Str
  | .episodic => str "episodic"
  | .semantic => str "semantic"
  | .affect => str "affect"

/-- `KINDS`. -/
def kinds : List Kind := [.episodic, .semantic, .affect]

/-- A row of the table `memories`. -/
structure Row where
  id : ℕ
  createdAt : ℚ
  source : Str
  kind : Kind
  summary : Str
  tags : Str
  valence : ℤ
  intensity : ℤ
  importance : ℚ
  lastRecalled : ℚ
  recallCount : ℤ
  deriving DecidableEq

structure MemoryRecord where
  id : ℕ
  createdAt : ℚ
  source : Str
  kind : Kind
  summary : Str
  tags : List Str
  valence : ℤ
  intensity : ℤ
  importance : ℚ
  lastRecalled : ℚ
  recallCount : ℤ
  deriving DecidableEq

def Row.toRecord (row : Row) : MemoryRecord where
  id := row.id
  createdAt := row.createdAt
  source := row.source
  kind := row.kind
  summary := row.summary
  tags := decodeTags row.tags
  valence := row.valence
  intensity := row.intensity
  importance := row.importance
  lastRecalled := row.lastRecalled
  recallCount := row.recallCount

/-- What a call can raise. -/
inductive Error
  /-- `ValueError`: unknown memory kind. -/
  | unknownKind (kind : Str)
  /-- `ValueError`: tag must contain at least one usable character. -/
  | unusableTag
  /-- `ValueError`: forget_by requires at least one filter. -/
  | noFilter
  /-- `UnicodeEncodeError`: a statement's text with a lone surrogate. -/
  | surrogate (text : Str)
  /-- `OverflowError`: a statement's integer past 64 bits. -/
  | overflow (n : ℤ)
  deriving DecidableEq

/-- What the store rests on: the engine's sorter and its full-text index, and float powers. -/
structure Engine where
  /-- `ORDER BY`; rows that compare equal come in any order. -/
  orderBy : (Row → Row → Bool) → List Row → List Row
  orderBy_perm : ∀ le rows, (orderBy le rows).Perm rows
  orderBy_sorted : ∀ le : Row → Row → Bool, (∀ a b c, le a b → le b c → le a c) →
    (∀ a b, le a b || le b a) → ∀ rows, (orderBy le rows).Pairwise (le · ·)
  /-- `MATCH` with a prefix for each token, when there is an index; nothing when it raises. -/
  fullText : Option (List Str → Option (Row → Bool))
  /-- `0.5 ** x`. -/
  decay : ℚ → ℚ

/-- The engine that keeps rows that compare equal in the order of insertion, without an index. -/
def Engine.stable (decay : ℚ → ℚ) : Engine where
  orderBy le rows := rows.mergeSort le
  orderBy_perm le rows := rows.mergeSort_perm le
  orderBy_sorted _ htrans htotal _ := List.pairwise_mergeSort htrans htotal _
  fullText := none
  decay := decay

structure Store where
  rows : List Row := []
  /-- The last row id that `AUTOINCREMENT` gave. -/
  lastId : ℕ := 0
  writesEnabled : Bool := true

/-! ### Arguments -/

def checkKind (kind : Str) : Except Error Kind :=
  match kinds.find? (·.text = kind) with
  | some k => .ok k
  | none => .error (.unknownKind kind)

def isSurrogate (c : ℕ) : Bool := 0xd800 ≤ c && c ≤ 0xdfff

/-- Hand a text to a statement. -/
def bindText (text : Str) : Except Error Unit :=
  if text.any isSurrogate then .error (.surrogate text) else .ok ()

/-- Hand an integer to a statement. -/
def bindInt (n : ℤ) : Except Error Unit :=
  if -2 ^ 63 ≤ n ∧ n < 2 ^ 63 then .ok () else .error (.overflow n)

/-- The token of a tag to select by. -/
def usableToken (tag : Str) : Except Error Str :=
  if normalizeTag tag = [] then .error .unusableTag else .ok (normalizeTag tag)

def clampSigned (value : ℤ) : ℤ := max (-100) (min 100 value)

def clampUnsigned (value : ℤ) : ℤ := max 0 (min 100 value)

/-- The pattern `%token%`. -/
def within (token : Str) : Str := 37 :: token ++ [37]

def score (valence intensity : ℤ) (ownerInitiated alert : Bool) (novelty : ℚ) (repetition : ℕ) : ℚ :=
  let valenceMag : ℚ := |valence| / 100
  let components := 0.35 * valenceMag + 0.20 * (if ownerInitiated then 1 else 0) +
    0.20 * (if alert then 1 else 0) + 0.15 * novelty + 0.10 * (intensity / 100)
  let repetitionBoost := min 0.10 (max 0 (repetition : ℚ) * 0.01)
  min 100 ((components + repetitionBoost) * 100)

/-! ### Capture -/

/-- The arguments of `capture`. -/
structure Moment where
  source : Str
  summary : Str
  kind : Str := Kind.episodic.text
  tags : Option (List Str) := none
  valence : ℤ := 0
  intensity : ℤ := 0
  ownerInitiated : Bool := false
  alert : Bool := false

/-- Stored under the same source and summary, not too long ago. -/
def isDuplicate (source summary : Str) (now : ℚ) (row : Row) : Bool :=
  row.source = source ∧ row.summary = summary ∧ now - dedupeWindowSeconds ≤ row.createdAt

/-- `ORDER BY created_at DESC`. -/
def newerFirst (a b : Row) : Bool := b.createdAt ≤ a.createdAt

/-- `ORDER BY importance DESC, created_at DESC`. -/
def strongerFirst (a b : Row) : Bool :=
  b.importance < a.importance ∨ (b.importance = a.importance ∧ b.createdAt ≤ a.createdAt)

/-- One more recall at `now`, with this importance. -/
def Row.recalled (row : Row) (importance now : ℚ) : Row :=
  { row with importance := importance, lastRecalled := now, recallCount := row.recallCount + 1 }

def Row.raiseIntensity (row : Row) (intensity : ℤ) : Row :=
  { row with intensity := max row.intensity intensity }

namespace Store

variable (e : Engine) (s : Store)

def findRecentDuplicate (source summary : Str) (now : ℚ) : Option Row :=
  (e.orderBy newerFirst (s.rows.filter (isDuplicate source summary now))).head?

def bumpExisting (row : Row) (intensity : ℤ) (now : ℚ) : Store :=
  let importance := min 100 (row.importance + recallBump)
  { s with
    rows := update (·.id = row.id) (fun r => (r.recalled importance now).raiseIntensity intensity)
      s.rows }

def countSource (source : Str) : ℕ := count (·.source = source) s.rows

/-- The importance `capture` gives a moment that is no duplicate. -/
def importanceOf (m : Moment) : ℚ :=
  score (clampSigned m.valence) (clampUnsigned m.intensity) m.ownerInitiated m.alert 1
    (s.countSource m.source)

/-- The row `capture` stores. -/
def newRow (m : Moment) (kind : Kind) (now : ℚ) : Row where
  id := s.lastId + 1
  createdAt := now
  source := m.source
  kind := kind
  summary := cleanSummary m.summary
  tags := encodeTags m.tags
  valence := clampSigned m.valence
  intensity := clampUnsigned m.intensity
  importance := s.importanceOf m
  lastRecalled := now
  recallCount := 0

def insert (row : Row) : Store := { s with rows := s.rows ++ [row], lastId := row.id }

def capture (now : ℚ) (m : Moment) : Except Error (Option ℕ × Store) :=
  if !s.writesEnabled then .ok (none, s)
  else if cleanSummary m.summary = [] then .ok (none, s)
  else do
    let kind ← checkKind m.kind
    bindText m.source
    bindText (cleanSummary m.summary)
    match s.findRecentDuplicate e m.source (cleanSummary m.summary) now with
    | some existing =>
      .ok (some existing.id, s.bumpExisting existing (clampUnsigned m.intensity) now)
    | none =>
      if s.importanceOf m < importanceThreshold then .ok (none, s)
      else .ok (some (s.lastId + 1), s.insert (s.newRow m kind now))

/-! ### Retrieval -/

def recentStrong (pool : ℕ) : List Row := (e.orderBy strongerFirst s.rows).take pool

def tagRows (tagTokens : List Str) (pool : ℕ) : List Row :=
  (e.orderBy strongerFirst
    (s.rows.filter fun row => tagTokens.all fun token => like (within token) row.tags)).take pool

def searchRows (tokens : List Str) (pool : ℕ) : List Row :=
  let hit : Option (Row → Bool) := match e.fullText with
    | some index => index tokens
    | none => some fun row => tokens.any fun token => like (within token) row.summary
  match hit with
  | some hit => (e.orderBy (fun a b => b.importance ≤ a.importance) (s.rows.filter hit)).take pool
  | none => []

end Store

def effectiveImportance (e : Engine) (row : Row) (now : ℚ) : ℚ :=
  let anchor := max row.createdAt row.lastRecalled
  let age := max 0 (now - anchor)
  row.importance * e.decay (age / retentionHalflifeSeconds)

/-- A `dict` from ids to rows: a repeated id keeps its place and takes the later row. -/
def candidates (rows : List Row) : List Row :=
  rows.foldl (fun found row =>
    if found.any (·.id = row.id) then found.map fun r => if r.id = row.id then row else r
    else found ++ [row]) []

namespace Store

variable (e : Engine) (s : Store)

/-- The rows whose recall counts: a first one, or one after the cooldown. -/
def markRecalled (ids : List ℕ) (now : ℚ) : Store :=
  { s with
    rows := update
      (fun r => ids.contains r.id &&
        (r.recallCount = 0 || recallCooldownSeconds ≤ now - r.lastRecalled))
      (fun r => r.recalled (min 100 (r.importance + recallBump)) now) s.rows }

end Store

/-- The arguments of `retrieve`. -/
structure Query where
  query : Option Str := none
  tags : Option (List Str) := none
  limit : ℤ := 5

def Query.tokens (q : Query) : List Str :=
  match q.query with
  | some query => if query = [] then [] else tokenize query
  | none => []

def Query.pool (q : Query) : ℕ := (max (q.limit * 4) 20).toNat

namespace Store

variable (e : Engine) (s : Store)

/-- The rows `retrieve` returns, best first. -/
def ranked (now : ℚ) (q : Query) : List Row :=
  let textRows := if q.tokens = [] then [] else s.searchRows e q.tokens q.pool
  let textIds := textRows.map (·.id)
  -- An explicit tag is a hard filter, not just a ranking hint.
  let baseRows :=
    if normalizeTags q.tags = [] then s.recentStrong e q.pool ++ textRows
    else s.tagRows e (normalizeTags q.tags) q.pool
  let value (row : Row) : ℚ :=
    effectiveImportance e row now + if textIds.contains row.id then textMatchBonus else 0
  ((candidates baseRows).mergeSort fun a b => value b ≤ value a).take q.limit.toNat

def retrieve (now : ℚ) (q : Query) : Except Error (List MemoryRecord × Store) :=
  if q.limit < 1 then .ok ([], s)
  else do
    bindInt q.pool
    if s.ranked e now q = [] ∨ !s.writesEnabled then .ok ((s.ranked e now q).map (·.toRecord), s)
    else .ok ((s.ranked e now q).map (·.toRecord), s.markRecalled ((s.ranked e now q).map (·.id)) now)

end Store

/-! ### Inspection and callbacks -/

/-- The arguments of `count_by`. -/
structure CountFilter where
  source : Option Str := none
  tag : Option Str := none
  kind : Option Str := none
  after : Option Double := none

/-- The condition `count_by` counts by. -/
def CountFilter.condition (f : CountFilter) : Except Error (Row → Bool) := do
  let token ← f.tag.mapM usableToken
  let kind ← f.kind.mapM checkKind
  f.source.forM bindText
  .ok fun row =>
    f.source.all (row.source = ·) && token.all (fun t => like (within (32 :: t ++ [32])) row.tags) &&
      kind.all (row.kind = ·) && f.after.all (Double.le · (.finite row.createdAt))

/-- `max(0.0, x)`. -/
def atLeastZero (x : Double) : Double := if Double.lt (.finite 0) x then x else .finite 0

/-- `now - x`. -/
def before (now : ℚ) : Double → Double
  | .nan => .nan
  | .posInf => .negInf
  | .negInf => .posInf
  | .finite x => .finite (now - x)

/-- The arguments of `spontaneous_callback`. -/
structure CallbackLimits where
  minAgeSeconds : Double := .finite spontaneousCallbackMinAgeSeconds
  cooldownSeconds : Double := .finite spontaneousCallbackCooldownSeconds

/-- Old enough, not recalled lately, and not an affect. -/
def CallbackLimits.admits (limits : CallbackLimits) (now : ℚ) (row : Row) : Bool :=
  Double.le (.finite row.createdAt) (before now (atLeastZero limits.minAgeSeconds)) &&
    Double.le (atLeastZero limits.cooldownSeconds) (.finite (now - row.lastRecalled)) &&
    (row.kind = .episodic || row.kind = .semantic)

/-- `ORDER BY importance DESC, recall_count ASC, created_at ASC`. -/
def callbackOrder (a b : Row) : Bool :=
  b.importance < a.importance ∨ (b.importance = a.importance ∧
    (a.recallCount < b.recallCount ∨ (a.recallCount = b.recallCount ∧ a.createdAt ≤ b.createdAt)))

namespace Store

variable (e : Engine) (s : Store)

def countBy (f : CountFilter) : Except Error ℕ := do
  let hit ← f.condition
  .ok (count hit s.rows)

def hasSummary (summary : Str) (kind : Option Str) : Except Error Bool :=
  if cleanSummary summary = [] then .ok false
  else do
    let kind ← kind.mapM checkKind
    bindText (cleanSummary summary)
    .ok (s.rows.any fun row => row.summary = cleanSummary summary && kind.all (row.kind = ·))

def spontaneousCallback (now : ℚ) (limits : CallbackLimits) : Option MemoryRecord × Store :=
  match (e.orderBy callbackOrder (s.rows.filter (limits.admits now))).head? with
  | none => (none, s)
  | some row => (some row.toRecord, if s.writesEnabled then s.markRecalled [row.id] now else s)

end Store

/-! ### Forgetting -/

/-- The arguments of `forget_by`. -/
structure ForgetFilter where
  tag : Option Str := none
  source : Option Str := none
  before : Option Double := none
  after : Option Double := none

/-- The condition `forget_by` deletes by. -/
def ForgetFilter.condition (f : ForgetFilter) : Except Error (Row → Bool) := do
  let token ← f.tag.mapM usableToken
  if f.tag.isNone && f.source.isNone && f.before.isNone && f.after.isNone then .error .noFilter
  else do
    f.source.forM bindText
    .ok fun row =>
      token.all (fun t => like (within t) row.tags) && f.source.all (row.source = ·) &&
        f.before.all (Double.lt (.finite row.createdAt) ·) &&
        f.after.all (Double.lt · (.finite row.createdAt))

namespace Store

variable (s : Store)

def forget (memoryId : ℤ) : Except Error (ℕ × Store) := do
  bindInt memoryId
  let hit (row : Row) : Bool := row.id = memoryId
  .ok (count hit s.rows, { s with rows := delete hit s.rows })

def forgetBy (f : ForgetFilter) : Except Error (ℕ × Store) := do
  let hit ← f.condition
  .ok (count hit s.rows, { s with rows := delete hit s.rows })

def reset : Store := { s with rows := [] }

def setWritesEnabled (enabled : Bool) : Store := { s with writesEnabled := enabled }

end Store

/-! ### What a call can do -/

open Library.Fallible

variable {e : Engine} {s t : Store} {m : Moment} {q : Query} {now : ℚ} {row : Row}
  {source summary tag : Str} {memoryId : Option ℕ} {records : List MemoryRecord} {n : ℕ}

theorem usableToken_eq (h : normalizeTag tag ≠ []) : usableToken tag = .ok (normalizeTag tag) :=
  if_neg h

theorem mem_of_findRecentDuplicate (h : s.findRecentDuplicate e source summary now = some row) :
    row ∈ s.rows := by
  have hmem := List.mem_of_mem_head? h
  exact (List.mem_filter.mp ((e.orderBy_perm _ _).mem_iff.mp hmem)).1

theorem not_duplicate_of_findRecentDuplicate
    (h : s.findRecentDuplicate e source summary now = none) :
    ∀ row ∈ s.rows, isDuplicate source summary now row = false := by
  intro row hrow
  have hnil := List.head?_eq_none_iff.mp h
  have hfilter : s.rows.filter (isDuplicate source summary now) = [] :=
    List.Perm.nil_eq (hnil ▸ e.orderBy_perm newerFirst _) |>.symm
  simpa using List.filter_eq_nil_iff.mp hfilter row hrow

/-- A capture changes nothing, bumps a row, or stores one where there is no duplicate. -/
theorem capture_ok (h : s.capture e now m = .ok (memoryId, t)) :
    t = s ∨
    (∃ row ∈ s.rows, t = s.bumpExisting row (clampUnsigned m.intensity) now) ∨
    ∃ kind, cleanSummary m.summary ≠ [] ∧ importanceThreshold ≤ s.importanceOf m ∧
      (∀ row ∈ s.rows, isDuplicate m.source (cleanSummary m.summary) now row = false) ∧
      t = s.insert (s.newRow m kind now) := by
  unfold Store.capture at h
  split at h
  · simp_all
  split at h
  · simp_all
  next hsummary =>
    obtain ⟨kind, -, h⟩ := bind_eq_ok.mp h
    obtain ⟨-, -, h⟩ := bind_eq_ok.mp h
    obtain ⟨-, -, h⟩ := bind_eq_ok.mp h
    cases hdup : s.findRecentDuplicate e m.source (cleanSummary m.summary) now with
    | some row =>
      simp only [hdup, Except.ok.injEq, Prod.mk.injEq] at h
      exact .inr (.inl ⟨row, mem_of_findRecentDuplicate hdup, h.2.symm⟩)
    | none =>
      simp only [hdup] at h
      split at h
      · simp_all
      next himportance =>
        simp only [Except.ok.injEq, Prod.mk.injEq] at h
        exact .inr (.inr ⟨kind, hsummary, not_lt.mp himportance,
          not_duplicate_of_findRecentDuplicate hdup, h.2.symm⟩)

/-- A capture that is allowed and salient stores a row when nothing was stored lately. -/
theorem capture_stores (hwrites : s.writesEnabled = true) (hsummary : cleanSummary m.summary ≠ [])
    (hnone : s.findRecentDuplicate e m.source (cleanSummary m.summary) now = none)
    (himportance : importanceThreshold ≤ s.importanceOf m)
    (h : s.capture e now m = .ok (memoryId, t)) : ∃ kind, t = s.insert (s.newRow m kind now) := by
  unfold Store.capture at h
  simp only [hwrites, Bool.not_true, Bool.false_eq_true, if_false, if_neg hsummary] at h
  obtain ⟨kind, -, h⟩ := bind_eq_ok.mp h
  obtain ⟨-, -, h⟩ := bind_eq_ok.mp h
  obtain ⟨-, -, h⟩ := bind_eq_ok.mp h
  simp only [hnone, if_neg (not_lt.mpr himportance), Except.ok.injEq, Prod.mk.injEq] at h
  exact ⟨kind, h.2.symm⟩

/-- A bump leaves what is counted by anything but recalls, importance and intensity. -/
theorem count_bumpExisting {row : Row} {intensity : ℤ} {counted : Row → Bool}
    (hcounted : ∀ (r : Row) (old : ℚ),
      counted ((r.recalled old now).raiseIntensity intensity) = counted r) :
    count counted (s.bumpExisting row intensity now).rows = count counted s.rows :=
  count_update fun r => hcounted r _

/-- A retrieval returns the ranked rows, and marks what it returns or nothing. -/
theorem retrieve_ok (h : s.retrieve e now q = .ok (records, t)) :
    (records = [] ∨ records = (s.ranked e now q).map (·.toRecord)) ∧
      (t = s ∨ t = s.markRecalled (records.map (·.id)) now) := by
  unfold Store.retrieve at h
  split at h
  · simp_all
  · obtain ⟨-, -, h⟩ := bind_eq_ok.mp h
    split at h
    · simp only [Except.ok.injEq, Prod.mk.injEq] at h
      exact ⟨.inr h.1.symm, .inl h.2.symm⟩
    · simp only [Except.ok.injEq, Prod.mk.injEq] at h
      obtain ⟨rfl, rfl⟩ := h
      have hids : ((s.ranked e now q).map (·.toRecord)).map (·.id) =
          (s.ranked e now q).map (·.id) := by
        rw [List.map_map]
        rfl
      exact ⟨.inr rfl, .inr (by rw [hids])⟩

/-- A callback marks the row it returns or nothing. -/
theorem spontaneousCallback_store (limits : CallbackLimits) :
    (s.spontaneousCallback e now limits).2 = s ∨
      (s.spontaneousCallback e now limits).2 =
        s.markRecalled ((s.spontaneousCallback e now limits).1.toList.map (·.id)) now := by
  unfold Store.spontaneousCallback
  split
  · exact .inl rfl
  · dsimp only
    split
    · exact .inr rfl
    · exact .inl rfl

theorem forget_ok {memoryId : ℤ} (h : s.forget memoryId = .ok (n, t)) :
    ∃ hit, n = count hit s.rows ∧ t = { s with rows := delete hit s.rows } := by
  obtain ⟨-, -, h⟩ := bind_eq_ok.mp h
  simp only [Except.ok.injEq, Prod.mk.injEq] at h
  exact ⟨_, h.1.symm, h.2.symm⟩

theorem forgetBy_ok {f : ForgetFilter} (h : s.forgetBy f = .ok (n, t)) :
    ∃ hit, f.condition = .ok hit ∧ n = count hit s.rows ∧
      t = { s with rows := delete hit s.rows } := by
  obtain ⟨hit, hcondition, h⟩ := bind_eq_ok.mp h
  simp only [Except.ok.injEq, Prod.mk.injEq] at h
  exact ⟨hit, hcondition, h.1.symm, h.2.symm⟩

/-! ### Selecting by tag -/

variable {rows : List Row}

theorem forgetBy_tag (h : normalizeTag tag ≠ []) : s.forgetBy { tag := some tag } =
    .ok (count (fun row => like (within (normalizeTag tag)) row.tags) s.rows,
      { s with rows := delete (fun row => like (within (normalizeTag tag)) row.tags) s.rows }) := by
  simp [Store.forgetBy, ForgetFilter.condition, usableToken_eq h]
  rfl

theorem countCondition_tag (h : normalizeTag tag ≠ []) :
    CountFilter.condition { tag := some tag } =
      .ok fun row => like (within (32 :: normalizeTag tag ++ [32])) row.tags := by
  simp [CountFilter.condition, usableToken_eq h]
  rfl

theorem candidates_concat : candidates (rows ++ [row]) =
    if (candidates rows).any (·.id = row.id) then
      (candidates rows).map fun r => if r.id = row.id then row else r
    else candidates rows ++ [row] := by
  rw [candidates, List.foldl_append]
  rfl

/-- Only rows that were put in are candidates. -/
theorem mem_of_mem_candidates (h : row ∈ candidates rows) : row ∈ rows := by
  induction rows using List.reverseRecOn generalizing row with
  | nil => simp [candidates] at h
  | append_singleton rows last ih =>
    rw [candidates_concat] at h
    split at h
    · obtain ⟨r, hr, rfl⟩ := List.mem_map.mp h
      split
      · simp
      · exact List.mem_append_left _ (ih hr)
    · rcases List.mem_append.mp h with h | h
      · exact List.mem_append_left _ (ih h)
      · exact List.mem_append_right _ h

/-- A retrieval by tags ranks rows that `%token%` finds, for every token. -/
theorem like_of_mem_ranked (hq : normalizeTags q.tags ≠ []) (h : row ∈ s.ranked e now q) :
    row ∈ s.rows ∧ ∀ token ∈ normalizeTags q.tags, like (within token) row.tags = true := by
  have hcandidate := List.mem_mergeSort.mp (List.mem_of_mem_take h)
  have hbase := mem_of_mem_candidates hcandidate
  rw [if_neg hq] at hbase
  have hfiltered := (e.orderBy_perm _ _).mem_iff.mp (List.mem_of_mem_take hbase)
  simpa using hfiltered

end Hologotchi.Memory
