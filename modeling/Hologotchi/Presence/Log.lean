import Hologotchi.Presence.Mailbox
import Hologotchi.Library.Runs

/-! The presence store refines the log of everything posted to it. -/
namespace Hologotchi.Presence

open Python Library Expiring

/-- A post to the store, with its stamp. -/
inductive Post
  | activity (signals : PresenceSignals) (ttlSeconds : Option Double) (now : ℚ)
  | presence (source : Str) (present : Bool) (ttlSeconds : Double) (now : ℚ)

inductive Call
  | post (p : Post)
  | get (now : ℚ)

inductive Answer
  | changed (b : Bool)
  | view (v : PresenceSignals)
  deriving DecidableEq

/-- The host activity is a source of its own. -/
inductive Source
  | activity
  | explicit (source : Str)
  deriving DecidableEq

namespace Post

def now : Post → ℚ
  | .activity _ _ now | .presence _ _ _ now => now

def source : Post → Source
  | .activity _ _ _ => .activity
  | .presence source _ _ _ => .explicit source

end Post

namespace Call

def now : Call → ℚ
  | .post p => p.now
  | .get now => now

def isPost : Call → Bool
  | .post _ => true
  | .get _ => false

end Call

namespace SignalMailbox

/-- The store at the start. -/
def new (activityTtl awayIdleSeconds : Double) : SignalMailbox := { activityTtl, awayIdleSeconds }

def post (m : SignalMailbox) : Post → SignalMailbox × Bool
  | .activity signals ttlSeconds now => m.setActivity signals ttlSeconds now
  | .presence source present ttlSeconds now => m.setPresence source present ttlSeconds now

def call (m : SignalMailbox) : Call → SignalMailbox × Answer
  | .post p => ((m.post p).1, .changed (m.post p).2)
  | .get now => ((m.get now).1, .view (m.get now).2)

end SignalMailbox

/-- What one source adds to the fused view. -/
inductive Contribution
  | signals (v : PresenceSignals)
  | present (b : Bool)

def SignalMailbox.contribution (m : SignalMailbox) (now : ℚ) : Source → Option Contribution
  | .activity => (live ActivityRecord.expired now m.activity).map fun r => .signals r.signals
  | .explicit source =>
    (live PresenceRecord.expired now (m.presence.lookup source)).map fun r => .present r.present

/-- The activity records posted, in order. -/
def activities (activityTtl : Double) (log : List Post) : List ActivityRecord :=
  log.filterMap fun
    | .activity signals ttlSeconds now => some ⟨signals, now, ttlSeconds.getD activityTtl⟩
    | .presence _ _ _ _ => none

/-- The presence records posted, in order, with their sources. -/
def presences (log : List Post) : List (Str × PresenceRecord) :=
  log.filterMap fun
    | .activity _ _ _ => none
    | .presence source present ttlSeconds now => some (source, ⟨present, now, ttlSeconds⟩)

/-- The unexpired latest post of a source. -/
def freshPost (log : List Post) (now : ℚ) (source : Str) : Option PresenceRecord :=
  live PresenceRecord.expired now (latest (presences log) source)

/-- The unexpired latest post of some source says `b`. -/
def LogSays (log : List Post) (now : ℚ) (b : Bool) : Prop :=
  ∃ source ∈ (presences log).map (·.1), (freshPost log now source).map (·.present) = some b

instance (log : List Post) (now : ℚ) (b : Bool) : Decidable (LogSays log now b) :=
  inferInstanceAs (Decidable (∃ source ∈ (presences log).map (·.1),
    (freshPost log now source).map (·.present) = some b))

/-- The view that follows from the whole log. -/
def logView (activityTtl : Double) (log : List Post) (now : ℚ) : PresenceSignals :=
  let signals := (live ActivityRecord.expired now (activities activityTtl log).getLast?).map
    (·.signals)
  { idleSeconds := signals.bind (·.idleSeconds)
    screenLocked := signals.bind (·.screenLocked)
    foregroundApp := signals.bind (·.foregroundApp)
    present := fused (LogSays log now false) (LogSays log now true) }

/-- The same calls on the log alone. -/
def logCall (activityTtl awayIdleSeconds : Double) (log : List Post) : Call → List Post × Answer
  | .post p =>
    let label log := coarse awayIdleSeconds (logView activityTtl log p.now)
    (log ++ [p], .changed (label log != label (log ++ [p])))
  | .get now => (log, .view (logView activityTtl log now))

/-- From `now` on the store cannot be told from the log. -/
structure Represents (activityTtl awayIdleSeconds : Double) (now : ℚ) (m : SignalMailbox)
    (log : List Post) : Prop where
  ttl_eq : m.activityTtl = activityTtl
  away_eq : m.awayIdleSeconds = awayIdleSeconds
  activity : CellAgrees ActivityRecord.expired now m.activity (activities activityTtl log).getLast?
  presence : Agrees PresenceRecord.expired now m.presence (presences log)

variable {ttl away : Double} {now later t : ℚ} {m : SignalMailbox} {log : List Post} {p q : Post}
  {c : Call} {calls rest : List Call} {b : Bool}

theorem logSays_iff : LogSays log t b ↔
    ∃ source r, freshPost log t source = some r ∧ r.present = b := by
  constructor
  · rintro ⟨source, -, hb⟩
    obtain ⟨r, hr, hpresent⟩ := Option.map_eq_some_iff.mp hb
    exact ⟨source, r, hr, hpresent⟩
  · rintro ⟨source, r, hr, hb⟩
    refine ⟨source, ?_, by rw [hr, Option.map_some, hb]⟩
    obtain ⟨hlatest, -⟩ := live_eq_some.mp hr
    exact List.mem_map.mpr ⟨_, mem_of_latest hlatest, rfl⟩

theorem represents_new (ttl away : Double) (now : ℚ) : Represents ttl away now (.new ttl away) [] where
  ttl_eq := rfl
  away_eq := rfl
  activity := cellAgrees_self now none
  presence := agrees_nil now

theorem represents_mono (h : Represents ttl away now m log) (hle : now ≤ later) :
    Represents ttl away later m log where
  ttl_eq := h.ttl_eq
  away_eq := h.away_eq
  activity := cellAgrees_mono h.activity hle
  presence := agrees_mono h.presence hle

/-- The two views agree. -/
theorem represents_view (h : Represents ttl away now m log) : m.view now = logView ttl log now := by
  have hfused : ∀ b, Says now (m.presence.entries.map (·.2)) b ↔ LogSays log now b := by
    intro b
    rw [says_iff_lookup, logSays_iff]
    have hlive : ∀ source, live PresenceRecord.expired now (m.presence.lookup source) =
        freshPost log now source := fun source => h.presence source now (le_refl now)
    simp only [hlive]
  have hpresent : (m.view now).present = (logView ttl log now).present := by
    rw [get_present, fusedPresent_eq]
    exact fused_congr (hfused false) (hfused true)
  have hactivity : (m.prune now).activity =
      live ActivityRecord.expired now (activities ttl log).getLast? :=
    h.activity now (le_refl now)
  obtain ⟨hidle, hlocked, happ⟩ := view_fields hactivity
  calc m.view now = ⟨(m.view now).idleSeconds, (m.view now).screenLocked,
        (m.view now).foregroundApp, (m.view now).present⟩ := rfl
    _ = logView ttl log now := by
      rw [hidle, hlocked, happ, hpresent]
      rfl

theorem represents_post (h : Represents ttl away p.now m log) :
    Represents ttl away p.now (m.post p).1 (log ++ [p]) := by
  cases p with
  | activity signals ttlSeconds now =>
    have hpresences : presences (log ++ [.activity signals ttlSeconds now]) = presences log := by
      simp [presences]
    have hactivities : (activities ttl (log ++ [.activity signals ttlSeconds now])).getLast? =
        some ⟨signals, now, ttlSeconds.getD ttl⟩ := by
      simp [activities]
    refine ⟨h.ttl_eq, h.away_eq, ?_, ?_⟩
    · rw [hactivities, ← h.ttl_eq]
      exact cellAgrees_self _ _
    · rw [hpresences]
      exact h.presence
  | presence source present ttlSeconds now =>
    have hactivities : activities ttl (log ++ [.presence source present ttlSeconds now]) =
        activities ttl log := by
      simp [activities]
    have hpresences : presences (log ++ [.presence source present ttlSeconds now]) =
        presences log ++ [(source, ⟨present, now, ttlSeconds⟩)] := by
      simp [presences]
    refine ⟨h.ttl_eq, h.away_eq, ?_, ?_⟩
    · rw [hactivities]
      exact h.activity
    · rw [hpresences]
      exact agrees_insert h.presence

theorem represents_get (h : Represents ttl away now m log) :
    Represents ttl away now (m.get now).1 log where
  ttl_eq := h.ttl_eq
  away_eq := h.away_eq
  activity := cellAgrees_prune activity_expired_mono h.activity
  presence := agrees_prune presence_expired_mono h.presence

/-- One call keeps the store and the log together and gets the same answer of both. -/
theorem represents_call (h : Represents ttl away c.now m log) :
    Represents ttl away c.now (m.call c).1 (logCall ttl away log c).1 ∧
      (m.call c).2 = (logCall ttl away log c).2 := by
  cases c with
  | get now => exact ⟨represents_get h, congrArg Answer.view (represents_view h)⟩
  | post p =>
    have hbefore : Represents ttl away p.now m log := h
    have hafter := represents_post hbefore
    refine ⟨hafter, congrArg Answer.changed ?_⟩
    have hchanged : (m.post p).2 =
        (m.coarsePresence p.now != (m.post p).1.coarsePresence p.now) := by
      cases p <;> rfl
    rw [hchanged, coarsePresence_eq, coarsePresence_eq, represents_view hbefore,
      represents_view hafter, h.away_eq, hafter.away_eq]

/-- Over any run with stamps that never decrease. -/
theorem represents_run (h : Represents ttl away now m log) (hle : ∀ c ∈ calls, now ≤ c.now)
    (hmono : (calls.map Call.now).Pairwise (· ≤ ·)) :
    answers SignalMailbox.call m calls = answers (logCall ttl away) log calls ∧
      ∀ later, now ≤ later → (∀ c ∈ calls, c.now ≤ later) →
        Represents ttl away later (finalState SignalMailbox.call m calls)
          (finalState (logCall ttl away) log calls) := by
  induction calls generalizing now m log with
  | nil => exact ⟨rfl, fun later hlater _ => represents_mono h hlater⟩
  | cons c calls ih =>
    obtain ⟨hfirst, hmono⟩ := List.pairwise_cons.mp hmono
    obtain ⟨hc, -⟩ := List.forall_mem_cons.mp hle
    obtain ⟨hstep, hanswer⟩ := represents_call (represents_mono h hc)
    have hnext : ∀ d ∈ calls, c.now ≤ d.now := by
      intro d hd
      exact hfirst _ (List.mem_map_of_mem hd)
    obtain ⟨hanswers, hfinal⟩ := ih hstep hnext hmono
    refine ⟨by rw [answers_cons, answers_cons, hanswer, hanswers], ?_⟩
    intro later _ hlater
    obtain ⟨hc, hcalls⟩ := List.forall_mem_cons.mp hlater
    exact hfinal later hc hcalls

/-- The posts among the calls. -/
def posts (calls : List Call) : List Post :=
  calls.filterMap fun
    | .post p => some p
    | .get _ => none

theorem finalState_logCall (log : List Post) (calls : List Call) :
    finalState (logCall ttl away) log calls = log ++ posts calls := by
  induction calls generalizing log with
  | nil => simp [posts]
  | cons c calls ih =>
    rw [finalState_cons, ih]
    cases c <;> simp [logCall, posts]

theorem posts_filter (calls : List Call) : posts (calls.filter Call.isPost) = posts calls := by
  induction calls with
  | nil => rfl
  | cons c calls ih =>
    cases c with
    | post p => exact congrArg (p :: ·) ih
    | get now => exact ih

/-- The order of the last two posts does not matter when their sources differ. -/
theorem represents_swap (hpq : p.source ≠ q.source)
    (h : Represents ttl away now m (log ++ [q, p])) : Represents ttl away now m (log ++ [p, q]) := by
  refine ⟨h.ttl_eq, h.away_eq, ?_, ?_⟩
  · have hactivities : activities ttl (log ++ [p, q]) = activities ttl (log ++ [q, p]) := by
      cases p <;> cases q <;> simp_all [activities, Post.source]
    rw [hactivities]
    exact h.activity
  · intro source
    have hlatest : latest (presences (log ++ [p, q])) source =
        latest (presences (log ++ [q, p])) source := by
      cases p with
      | activity _ _ _ => cases q <;> simp [presences]
      | presence a _ _ _ =>
        cases q with
        | activity _ _ _ => simp [presences]
        | presence b _ _ _ =>
          have hne : a ≠ b := by
            intro he
            exact hpq (congrArg Source.explicit he)
          simpa [presences] using latest_swap hne source
    rw [hlatest]
    exact h.presence source

/-- A post changes only what its own source adds. -/
theorem contribution_post {source : Source} (h : source ≠ p.source) :
    (m.post p).1.contribution t source = m.contribution t source := by
  cases p with
  | activity _ _ _ =>
    cases source with
    | activity => contradiction
    | explicit source => rfl
  | presence other _ _ _ =>
    cases source with
    | activity => rfl
    | explicit source =>
      have hne : source ≠ other := by
        intro he
        exact h (congrArg Source.explicit he)
      simp only [SignalMailbox.post, SignalMailbox.setPresence, SignalMailbox.contribution,
        AList.lookup_insert_ne hne]

/-- The first stamp of a run is its least. -/
theorem first_le (hmono : ((c :: rest).map Call.now).Pairwise (· ≤ ·)) :
    ∀ d ∈ c :: rest, c.now ≤ d.now := by
  intro d hd
  rcases List.mem_cons.mp hd with rfl | hd
  · exact le_refl _
  · exact (List.pairwise_cons.mp hmono).1 _ (List.mem_map_of_mem hd)

/-- A run with stamps that never decrease, from an empty store. -/
theorem run_represents (ttl away : Double) (hmono : (calls.map Call.now).Pairwise (· ≤ ·))
    (hlater : ∀ c ∈ calls, c.now ≤ later) :
    Represents ttl away later (finalState SignalMailbox.call (.new ttl away) calls)
      (posts calls) := by
  cases calls with
  | nil => exact represents_new ttl away later
  | cons c calls =>
    have hrun := represents_run (represents_new ttl away c.now) (first_le hmono) hmono
    have hfinal := hrun.2 later (hlater c List.mem_cons_self) hlater
    rwa [finalState_logCall, List.nil_append] at hfinal

/-- Every answer is the one the full log gives. -/
theorem answers_eq_log (ttl away : Double) (hmono : (calls.map Call.now).Pairwise (· ≤ ·)) :
    answers SignalMailbox.call (.new ttl away) calls = answers (logCall ttl away) [] calls := by
  cases calls with
  | nil => rfl
  | cons c calls => exact (represents_run (represents_new ttl away c.now) (first_le hmono) hmono).1

/-- Without its reads, a run leaves a store with the same view. -/
theorem view_filter_posts (ttl away : Double) (hmono : (calls.map Call.now).Pairwise (· ≤ ·))
    (hnow : ∀ c ∈ calls, c.now ≤ now) :
    (finalState SignalMailbox.call (.new ttl away) calls).view now =
      (finalState SignalMailbox.call (.new ttl away) (calls.filter Call.isPost)).view now := by
  have hsub : ((calls.filter Call.isPost).map Call.now).Sublist (calls.map Call.now) :=
    List.filter_sublist.map _
  have hpruned := run_represents ttl away hmono hnow
  have hkept := run_represents ttl away (hmono.sublist hsub)
    (fun c hc => hnow c (List.mem_of_mem_filter hc))
  rw [posts_filter] at hkept
  rw [represents_view hpruned, represents_view hkept]

/-- Neighbouring posts of different sources, taken in either order, answer alike from then on. -/
theorem answers_swap (ttl away : Double) (hpq : p.source ≠ q.source)
    (hmono : ((calls ++ .post p :: .post q :: rest).map Call.now).Pairwise (· ≤ ·))
    (hswapped : ((calls ++ .post q :: .post p :: rest).map Call.now).Pairwise (· ≤ ·)) :
    answers SignalMailbox.call
        (finalState SignalMailbox.call (.new ttl away) (calls ++ [.post p, .post q])) rest =
      answers SignalMailbox.call
        (finalState SignalMailbox.call (.new ttl away) (calls ++ [.post q, .post p])) rest := by
  have hsplit : ∀ a b : Post, calls ++ .post a :: .post b :: rest =
      (calls ++ [.post a, .post b]) ++ rest := by simp
  have hposts : ∀ a b : Post, posts (calls ++ [.post a, .post b]) = posts calls ++ [a, b] := by
    simp [posts]
  rw [hsplit, List.map_append] at hmono hswapped
  obtain ⟨hfront, hrest, hcross⟩ := List.pairwise_append.mp hmono
  obtain ⟨hfront', -, hcross'⟩ := List.pairwise_append.mp hswapped
  cases rest with
  | nil => rfl
  | cons c rest =>
    have hrun := run_represents ttl away hfront fun d hd =>
      hcross _ (List.mem_map_of_mem hd) c.now (List.mem_map_of_mem List.mem_cons_self)
    have hrun' := run_represents ttl away hfront' fun d hd =>
      hcross' _ (List.mem_map_of_mem hd) c.now (List.mem_map_of_mem List.mem_cons_self)
    rw [hposts] at hrun hrun'
    have hleft := (represents_run hrun (first_le hrest) hrest).1
    have hright := (represents_run (represents_swap hpq hrun') (first_le hrest) hrest).1
    exact hleft.trans hright.symm

/-- Every answer of every run is the one the full log gives. So reads that prune do not show in
later views, a post touches no other source, and neighbouring posts of different sources commute. -/
theorem mailbox_refines_log (ttl away : Double) (calls : List Call)
    (hmono : (calls.map Call.now).Pairwise (· ≤ ·)) :
    answers SignalMailbox.call (.new ttl away) calls = answers (logCall ttl away) [] calls ∧
    (∀ now, (∀ c ∈ calls, c.now ≤ now) →
      (finalState SignalMailbox.call (.new ttl away) calls).view now =
        (finalState SignalMailbox.call (.new ttl away) (calls.filter Call.isPost)).view now) ∧
    (∀ (m : SignalMailbox) p source t, source ≠ p.source →
      (m.post p).1.contribution t source = m.contribution t source) ∧
    ∀ p q before rest, calls = before ++ .post p :: .post q :: rest → p.source ≠ q.source →
      ((before ++ .post q :: .post p :: rest).map Call.now).Pairwise (· ≤ ·) →
      answers SignalMailbox.call
          (finalState SignalMailbox.call (.new ttl away) (before ++ [.post p, .post q])) rest =
        answers SignalMailbox.call
          (finalState SignalMailbox.call (.new ttl away) (before ++ [.post q, .post p])) rest := by
  refine ⟨answers_eq_log ttl away hmono, fun now => view_filter_posts ttl away hmono,
    fun m p source t => contribution_post, ?_⟩
  intro p q before rest hcalls hpq hswapped
  rw [hcalls] at hmono
  exact answers_swap ttl away hpq hmono hswapped

/-- Two sources, of which one expires between two reads. -/
theorem mailbox_refines_log_expiry :
    answers SignalMailbox.call (.new defaultActivityTtlSeconds defaultAwayIdleSeconds)
        [.post (.activity { idleSeconds := some (.finite 5) } none 100),
          .post (.presence (str "airpods") true (.finite 30) 100), .get 110, .get 140] =
      [.changed true, .changed false,
        .view { idleSeconds := some (.finite 5), present := some true },
        .view { idleSeconds := some (.finite 5) }] :=
  (mailbox_refines_log _ _ _ (by decide +kernel)).1.trans (by decide +kernel)

end Hologotchi.Presence
