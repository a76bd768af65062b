import Hologotchi.Library.Runs
import Hologotchi.Memory.Store

/-! Consolidation of repeated memories into facts (`host/reflection.py`), and the calls a memory
store answers. -/
namespace Hologotchi.Memory

open Python Library.Table

def praiseThreshold : ℕ := 3
def apologyThreshold : ℕ := 2
def failureThreshold : ℕ := 3

structure ConsolidationRule where
  summary : Str
  kind : Str
  tags : List Str
  valence : ℤ
  intensity : ℤ
  source : Option Str := none
  tag : Option Str := none
  threshold : ℕ := 1

/-- `RULES`. -/
def rules : List ConsolidationRule :=
  [{ summary := str "Owner often praises Shiro; praise helps Shiro feel proud."
     kind := Kind.semantic.text
     tags := [str "owner", str "praise", str "preference"]
     valence := 55
     intensity := 55
     source := some (str "direct_message")
     tag := some (str "praise")
     threshold := praiseThreshold },
   { summary := str "Owner apologizes after rough moments; apologies help Shiro recover."
     kind := Kind.semantic.text
     tags := [str "owner", str "apology", str "repair"]
     valence := 45
     intensity := 50
     source := some (str "direct_message")
     tag := some (str "apology")
     threshold := apologyThreshold },
   { summary := str "Repeated build failures make Shiro worried and protective."
     kind := Kind.affect.text
     tags := [str "build", str "fail", str "protective"]
     valence := -45
     intensity := 65
     tag := some (str "fail")
     threshold := failureThreshold }]

/-- What `consolidate_memory` captures for a rule. -/
def ConsolidationRule.moment (rule : ConsolidationRule) : Moment where
  source := str "reflection"
  summary := rule.summary
  kind := rule.kind
  tags := some rule.tags
  valence := rule.valence
  intensity := rule.intensity

namespace Store

variable (e : Engine) (s : Store)

/-- One turn of the loop: what it creates, and the store after it. -/
def applyRule (rule : ConsolidationRule) (now : ℚ) : Except Error (ℕ × Store) := do
  let known ← s.hasSummary rule.summary (some rule.kind)
  if known then .ok (0, s)
  else do
    let seen ← s.countBy { source := rule.source, tag := rule.tag }
    if seen < rule.threshold then .ok (0, s)
    else do
      let (memoryId, t) ← s.capture e now rule.moment
      .ok (if memoryId.isSome then 1 else 0, t)

/-- The loop over the rules; the clock reads `clock i` when the rule with the number `i` is
captured. -/
def consolidate (clock : ℕ → ℚ) : List (ConsolidationRule × ℕ) → Store → Except Error (ℕ × Store)
  | [], s => .ok (0, s)
  | (rule, i) :: rest, s => do
    let (created, t) ← s.applyRule e rule (clock i)
    let (more, u) ← consolidate clock rest t
    .ok (created + more, u)

def consolidateMemory (clock : ℕ → ℚ) : Except Error (ℕ × Store) :=
  consolidate e clock rules.zipIdx s

end Store

/-- A call on the store, with what the clock reads during it. -/
inductive Call
  | capture (now : ℚ) (m : Moment)
  | retrieve (now : ℚ) (q : Query)
  | spontaneousCallback (now : ℚ) (limits : CallbackLimits)
  | consolidateMemory (clock : ℕ → ℚ)
  | forget (memoryId : ℤ)
  | forgetBy (f : ForgetFilter)
  | reset
  | setWritesEnabled (enabled : Bool)

/-- What a call returns. -/
inductive Reply
  | memoryId (id : Option ℕ)
  | records (records : List MemoryRecord)
  | callback (record : Option MemoryRecord)
  | created (n : ℕ)
  | removed (n : ℕ)
  | done

/-- A call that raises has written nothing. -/
def settle {α : Type} (s : Store) (reply : α → Reply) :
    Except Error (α × Store) → Store × Except Error Reply
  | .ok (a, t) => (t, .ok (reply a))
  | .error x => (s, .error x)

def perform (e : Engine) (s : Store) : Call → Store × Except Error Reply
  | .capture now m => settle s .memoryId (s.capture e now m)
  | .retrieve now q => settle s .records (s.retrieve e now q)
  | .spontaneousCallback now limits =>
    settle s .callback (.ok (s.spontaneousCallback e now limits))
  | .consolidateMemory clock => settle s .created (s.consolidateMemory e clock)
  | .forget memoryId => settle s .removed (s.forget memoryId)
  | .forgetBy f => settle s .removed (s.forgetBy f)
  | .reset => (s.reset, .ok .done)
  | .setWritesEnabled enabled => (s.setWritesEnabled enabled, .ok .done)

open Library.Fallible

variable {e : Engine} {s t : Store} {now : ℚ} {clock : ℕ → ℚ} {rule : ConsolidationRule}
  {numbered : List (ConsolidationRule × ℕ)} {m : Moment} {n : ℕ}

/-- A turn changes the store by a capture or not at all. -/
theorem applyRule_ok (h : s.applyRule e rule now = .ok (n, t)) :
    t = s ∨ ∃ memoryId, s.capture e now rule.moment = .ok (memoryId, t) := by
  obtain ⟨known, -, h⟩ := bind_eq_ok.mp h
  split at h
  · simp_all
  · obtain ⟨seen, -, h⟩ := bind_eq_ok.mp h
    split at h
    · simp_all
    · obtain ⟨⟨memoryId, u⟩, hcapture, h⟩ := bind_eq_ok.mp h
      simp only [Except.ok.injEq, Prod.mk.injEq] at h
      obtain ⟨-, rfl⟩ := h
      exact .inr ⟨memoryId, hcapture⟩

/-- What every turn keeps, the loop keeps. -/
theorem consolidate_turns {P : Store → Prop}
    (hturn : ∀ entry ∈ numbered, ∀ {s t : Store} {n : ℕ}, P s →
      s.applyRule e entry.1 (clock entry.2) = .ok (n, t) → P t)
    (h : s.consolidate e clock numbered = .ok (n, t)) (hs : P s) : P t := by
  induction numbered generalizing s n with
  | nil =>
    cases h
    exact hs
  | cons first rest ih =>
    obtain ⟨hfirst, hrest⟩ := List.forall_mem_cons.mp hturn
    obtain ⟨⟨created, u⟩, hnow, h⟩ := bind_eq_ok.mp h
    obtain ⟨⟨more, v⟩, hlater, h⟩ := bind_eq_ok.mp h
    simp only [Except.ok.injEq, Prod.mk.injEq] at h
    obtain ⟨-, rfl⟩ := h
    exact ih hrest hlater (hfirst hs hnow)

/-- What every capture keeps, consolidation keeps. -/
theorem consolidate_keeps {P : Store → Prop}
    (hcapture : ∀ {s t : Store} {now : ℚ} {m : Moment} {memoryId : Option ℕ}, P s →
      s.capture e now m = .ok (memoryId, t) → P t)
    (h : s.consolidate e clock numbered = .ok (n, t)) (hs : P s) : P t := by
  refine consolidate_turns (fun entry _ {s t n} hs hturn => ?_) h hs
  rcases applyRule_ok hturn with rfl | ⟨memoryId, hmemory⟩
  · exact hs
  · exact hcapture hs hmemory

/-- A rule whose every use the store accepts. -/
structure ConsolidationRule.Accepted (rule : ConsolidationRule) : Prop where
  kind : (checkKind rule.kind).isOk = true
  summary : (bindText (cleanSummary rule.summary)).isOk = true
  condition : (CountFilter.condition { source := rule.source, tag := rule.tag }).isOk = true

theorem rules_accepted : ∀ rule ∈ rules, rule.Accepted := by
  have hall : ∀ rule ∈ rules, (checkKind rule.kind).isOk = true ∧
      (bindText (cleanSummary rule.summary)).isOk = true ∧
      (CountFilter.condition { source := rule.source, tag := rule.tag }).isOk = true := by
    decide +kernel
  intro rule hrule
  obtain ⟨hkind, hsummary, hcondition⟩ := hall rule hrule
  exact ⟨hkind, hsummary, hcondition⟩

theorem capture_isOk (hkind : (checkKind m.kind).isOk = true)
    (hsource : (bindText m.source).isOk = true)
    (hsummary : (bindText (cleanSummary m.summary)).isOk = true) :
    (s.capture e now m).isOk = true := by
  unfold Store.capture
  split
  · rfl
  split
  · rfl
  · refine isOk_bind hkind fun kind => isOk_bind hsource fun _ => isOk_bind hsummary fun _ => ?_
    split
    · rfl
    · split <;> rfl

theorem hasSummary_isOk {summary kind : Str} (hkind : (checkKind kind).isOk = true)
    (hsummary : (bindText (cleanSummary summary)).isOk = true) :
    (s.hasSummary summary (some kind)).isOk = true := by
  have hsome : ((some kind).mapM checkKind).isOk = true :=
    isOk_bind hkind fun _ => rfl
  unfold Store.hasSummary
  split
  · rfl
  · exact isOk_bind hsome fun _ => isOk_bind hsummary fun _ => rfl

theorem applyRule_isOk (h : rule.Accepted) : (s.applyRule e rule now).isOk = true := by
  refine isOk_bind (hasSummary_isOk h.kind h.summary) fun known => ?_
  split
  · rfl
  · refine isOk_bind (isOk_bind h.condition fun _ => rfl) fun seen => ?_
    split
    · rfl
    · exact isOk_bind (capture_isOk h.kind rfl h.summary) fun _ => rfl

theorem consolidate_isOk (h : ∀ r ∈ numbered, r.1.Accepted) :
    (s.consolidate e clock numbered).isOk = true := by
  induction numbered generalizing s with
  | nil => rfl
  | cons first rest ih =>
    obtain ⟨hfirst, hrest⟩ := List.forall_mem_cons.mp h
    exact isOk_bind (applyRule_isOk hfirst) fun _ => isOk_bind (ih hrest) fun _ => rfl

/-- Consolidation never raises. -/
theorem consolidateMemory_isOk : (s.consolidateMemory e clock).isOk = true := by
  apply consolidate_isOk
  intro r hr
  exact rules_accepted r.1 (List.fst_mem_of_mem_zipIdx hr)

/-- The calls that delete rows. -/
def Call.Deletes : Call → Prop
  | .forget _ | .forgetBy _ | .reset => True
  | .capture .. | .retrieve .. | .spontaneousCallback .. | .consolidateMemory _
  | .setWritesEnabled _ => False

/-- What the writes of a call keep, the call keeps. -/
theorem perform_keeps {P : Store → Prop} {call : Call}
    (hmark : ∀ {s ids now}, P s → P (s.markRecalled ids now))
    (hcapture : ∀ {s t : Store} {now : ℚ} {m : Moment} {memoryId : Option ℕ}, P s →
      s.capture e now m = .ok (memoryId, t) → P t)
    (hwrites : ∀ {s enabled}, call = .setWritesEnabled enabled → P s →
      P (s.setWritesEnabled enabled))
    (hdelete : call.Deletes → ∀ {s hit}, P s → P { s with rows := delete hit s.rows })
    (h : P s) : P (perform e s call).1 := by
  have hsettled {α : Type} {reply : α → Reply} {result : Except Error (α × Store)}
      (hok : ∀ a t, result = .ok (a, t) → P t) : P (settle s reply result).1 := by
    cases result with
    | error x => exact h
    | ok r => exact hok r.1 r.2 rfl
  have hmarked {ids : List ℕ} {now : ℚ} {t : Store} (ht : t = s ∨ t = s.markRecalled ids now) :
      P t := by
    rcases ht with rfl | rfl
    · exact h
    · exact hmark h
  cases call with
  | capture now m => exact hsettled fun _ _ hok => hcapture h hok
  | retrieve now q => exact hsettled fun _ _ hok => hmarked (retrieve_ok hok).2
  | spontaneousCallback now limits => exact hmarked (spontaneousCallback_store limits)
  | consolidateMemory clock => exact hsettled fun _ _ hok => consolidate_keeps hcapture hok h
  | forget memoryId =>
    refine hsettled fun _ _ hok => ?_
    obtain ⟨hit, -, rfl⟩ := forget_ok hok
    exact hdelete trivial h
  | forgetBy f =>
    refine hsettled fun _ _ hok => ?_
    obtain ⟨hit, -, -, rfl⟩ := forgetBy_ok hok
    exact hdelete trivial h
  | reset =>
    have hall : s.reset = { s with rows := delete (fun _ => true) s.rows } := by
      simp [Store.reset, delete]
    change P s.reset
    rw [hall]
    exact hdelete trivial h
  | setWritesEnabled enabled => exact hwrites rfl h

end Hologotchi.Memory
