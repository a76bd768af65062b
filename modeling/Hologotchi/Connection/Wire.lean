import Hologotchi.Connection.Model

/-! The lines on the wire: when a behavior that was sent stands on a line of its own. -/
namespace Hologotchi.Connection

open Python Library Lines Protocol

/-- The text of a behavior, without its line break. -/
def body (command : BehaviorCommand) : List UInt8 := encodeAscii (FlatJson.print command.payload)

theorem payload_eq (command : BehaviorCommand) : payload command = body command ++ [newline] := by
  simp [payload, body, BehaviorCommand.toJsonLine, encodeAscii, newline]

theorem mem_print_payload {command : BehaviorCommand} {c : ℕ}
    (h : c ∈ FlatJson.print command.payload) : 32 ≤ c ∧ c ≤ 126 := by
  have hkeys : ∀ f ∈ command.payload, ∀ c ∈ f.1, 32 ≤ c ∧ c ≤ 126 := by
    simp only [BehaviorCommand.payload, List.forall_mem_cons]
    decide
  have hkind : ∀ c ∈ str wireKind, 32 ≤ c ∧ c ≤ 126 := by decide
  have hmood : ∀ c ∈ str command.mood.name, 32 ≤ c ∧ c ≤ 126 := by
    cases command.mood <;> decide
  have hanimation : ∀ c ∈ str command.animation.name, 32 ≤ c ∧ c ≤ 126 := by
    cases command.animation <;> decide
  rcases FlatJson.mem_print h with hrange | ⟨f, hf, hkey | ⟨text, htext, hmem⟩⟩
  · omega
  · exact hkeys f hf c hkey
  · simp only [BehaviorCommand.payload, List.mem_cons, List.not_mem_nil, or_false] at hf
    rcases hf with rfl | rfl | rfl | rfl | rfl | rfl | rfl <;> cases htext
    · exact hkind c hmem
    · exact hmood c hmem
    · exact hanimation c hmem
    · exact FlatJson.escape_range hmem

/-- What stands on the line of a behavior can be printed. -/
theorem mem_body {command : BehaviorCommand} {b : UInt8} (h : b ∈ body command) :
    32 ≤ b.toNat ∧ b.toNat ≤ 126 := by
  obtain ⟨c, hc, rfl⟩ := List.mem_map.mp h
  obtain ⟨hlow, hhigh⟩ := mem_print_payload hc
  rw [UInt8.toNat_ofNat']
  omega

theorem newline_notMem_body (command : BehaviorCommand) : newline ∉ body command :=
  fun h => absurd (mem_body h).1 (by decide)

theorem payload_atLineStart (job : Job) (p : List UInt8) :
    AtLineStart newline (p ++ job.payload) := by
  cases job with
  | send command left =>
    rw [Job.payload, payload_eq, ← List.append_assoc]
    exact atLineStart_line newline _
  | keepalive => exact atLineStart_line newline p

variable {ι : Type*}

/-- The connection on which a `sendall` broke off and that is not closed yet, with the part that
went out. -/
def Call.broken : Call → Option (Socket × List UInt8)
  | .dropping _ sock part | .closing _ sock part => some (sock, part)
  | .idle | .ensuring _ _ | .connecting _ _ _ | .connected _ _ _ | .peeking | .writing _ _ => none

/-- The wire ends inside a line that a call broke off; the call has yet to close the socket. -/
def State.Behind (s : State ι) (sock : Socket) : Prop :=
  ∃ i part, (s.call i).broken = some (sock, part) ∧ part <:+ s.wire sock ∧
    ¬ AtLineStart newline part

/-- The sent line is on the wire, at a line start, and the device reads it as a line. -/
def Whole (s : State ι) (d : Delivery) : Prop :=
  AtLineStart newline d.before ∧ (d.before ++ payload d.command) <+: s.wire d.sock ∧
    body d.command ∈ (splitLines newline (s.wire d.sock)).1

/-- No behavior is written behind a broken line. -/
def Undisturbed (s : State ι) : Label ι → Prop
  | .written i => ∀ command left sock, s.call i = .writing (.send command left) sock →
      ¬ s.Behind sock
  | _ => True

/-- An unfinished line is always somebody's broken one, and what was sent is there. -/
structure Accounted (s : State ι) : Prop where
  midLine : ∀ sock ∉ s.shut, ¬ AtLineStart newline (s.wire sock) → s.Behind sock
  recorded : ∀ d ∈ s.delivered, (d.before ++ payload d.command) <+: s.wire d.sock

theorem accounted_initial (onTouch : Bool) : Accounted (initial ι onTouch) := by
  constructor <;> simp [initial, atLineStart_nil]

theorem whole_iff {s : State ι} {d : Delivery}
    (h : (d.before ++ payload d.command) <+: s.wire d.sock) :
    Whole s d ↔ AtLineStart newline d.before := by
  constructor
  · exact fun hwhole => hwhole.1
  · intro hstart
    refine ⟨hstart, h, ?_⟩
    obtain ⟨after, hafter⟩ := h
    rw [← hafter, payload_eq]
    exact mem_splitLines hstart (newline_notMem_body d.command)

/-- The wire ends in a part that is no line. -/
theorem behind_midLine {s : State ι} (h : s.Behind sock) :
    ¬ AtLineStart newline (s.wire sock) := by
  obtain ⟨i, part, -, ⟨p, hp⟩, hmid⟩ := h
  have hne : part ≠ [] := by
    rintro rfl
    exact hmid (atLineStart_nil newline)
  rw [← hp, atLineStart_append hne]
  exact hmid

variable {s : State ι} {i : ι} {sock : Socket}

theorem forall_whole_iff (hs : Accounted s) :
    (∀ d ∈ s.delivered, Whole s d) ↔ ∀ d ∈ s.delivered, AtLineStart newline d.before :=
  forall₂_congr fun d hd => whole_iff (hs.recorded d hd)

/-- A finished `sendall` left a whole line exactly when it was not behind a broken one. -/
theorem written_whole {job : Job} (hi : s.call i = .writing job sock) (hopen : sock ∉ s.shut)
    (hs : Accounted s) : (∀ d ∈ job.deliveries sock (s.wire sock), AtLineStart newline d.before) ↔
      Undisturbed s (.written i) := by
  cases job with
  | keepalive => simp [Job.deliveries, Undisturbed, hi]
  | send command left =>
    simp only [Job.deliveries, Undisturbed, List.mem_singleton, forall_eq, hi]
    constructor
    · rintro hstart _ _ _ hcall hbehind
      injection hcall with _ hsock
      subst hsock
      exact behind_midLine hbehind hstart
    · intro hclear
      by_contra hmid
      exact hclear command left sock rfl (hs.midLine sock hopen hmid)

section Steps

variable [DecidableEq ι] {connectRetries : ℕ} {s t : State ι} {a : Label ι} {i : ι}
  {sock : Socket} {part : List UInt8} {run : List (Label ι × State ι)}

/-- A broken line stays its call's until the socket is closed. -/
theorem step_broken (h : Step connectRetries s a t) (hb : (s.call i).broken = some (sock, part)) :
    (t.call i).broken = some (sock, part) ∨ sock ∈ t.shut := by
  by_cases ha : Actor.call i = a.actor
  · cases h <;> simp_all [Call.broken]
  · rw [step_other_call h ha]
    exact .inl hb

/-- A line that is left as it is stays explained. -/
theorem step_behind (h : Step connectRetries s a t) (hopen : sock ∉ t.shut)
    (hwire : t.wire sock = s.wire sock) (hs : s.Behind sock) : t.Behind sock := by
  obtain ⟨i, part, hbroken, hpart, hmid⟩ := hs
  rcases step_broken h hbroken with hstill | hshut
  · exact ⟨i, part, hstill, hwire ▸ hpart, hmid⟩
  · exact (hopen hshut).elim

/-- What is on a wire stays there. -/
theorem step_wire_grows (h : Step connectRetries s a t) (sock : Socket) :
    s.wire sock <+: t.wire sock := by
  have hwrite : ∀ other bytes, s.wire sock <+: (s.write other bytes).wire sock := by
    intro other bytes
    by_cases hsock : sock = other
    · subst hsock
      simp
    · simp [hsock]
  cases h with
  | written _ _ => exact hwrite _ _
  | broken _ _ _ => exact hwrite _ _
  | _ => exact List.prefix_rfl

theorem written_accounted {job : Job} (hi : s.call i = .writing job sock) (hopen : sock ∉ s.shut)
    (hs : Accounted s) :
    Accounted (((s.deliver job sock).write sock job.payload).setCall i .idle) := by
  have hstep : Step 0 s (.written i) _ := .written hi hopen
  constructor
  · intro other hother hmid
    by_cases hsock : other = sock
    · subst hsock
      simp only [State.setCall, State.write, State.deliver, Function.update_self] at hmid
      exact (hmid (payload_atLineStart job _)).elim
    · have hwire : (((s.deliver job sock).write sock job.payload).setCall i .idle).wire other =
          s.wire other := by simp [hsock]
      rw [hwire] at hmid
      exact step_behind hstep hother hwire (hs.midLine other hother hmid)
  · intro d hd
    rcases List.mem_append.mp hd with hd | hd
    · exact (hs.recorded d hd).trans (step_wire_grows hstep d.sock)
    · cases job with
      | keepalive => cases hd
      | send command left =>
        obtain rfl := List.mem_singleton.mp hd
        simp [Job.payload]

theorem broken_accounted {job : Job} (hi : s.call i = .writing job sock)
    (hpart : part <+: job.payload) (hopen : sock ∈ s.shut → part = []) (hs : Accounted s) :
    Accounted ((s.write sock part).setCall i (.dropping job sock part)) := by
  have hstep : Step 0 s (.broken i part) _ := .broken hi hpart hopen
  constructor
  · intro other hother hmid
    by_cases hfresh : other = sock ∧ part ≠ []
    · -- The wire ends in the part that this call leaves.
      obtain ⟨rfl, hne⟩ := hfresh
      have hwire : ((s.write other part).setCall i (.dropping job other part)).wire other =
          s.wire other ++ part := by simp
      refine ⟨i, part, by simp [Call.broken], hwire ▸ List.suffix_append _ _, ?_⟩
      rwa [hwire, atLineStart_append hne] at hmid
    · have hwire : ((s.write sock part).setCall i (.dropping job sock part)).wire other =
          s.wire other := by
        by_cases hsock : other = sock
        · have hnil : part = [] := by
            by_contra hne
            exact hfresh ⟨hsock, hne⟩
          simp [hsock, hnil]
        · simp [hsock]
      rw [hwire] at hmid
      exact step_behind hstep hother hwire (hs.midLine other hother hmid)
  · intro d hd
    exact (hs.recorded d hd).trans (step_wire_grows hstep d.sock)

theorem step_accounted (h : Step connectRetries s a t) (hs : Accounted s) : Accounted t := by
  by_cases hwrites : (∃ i, a = .written i) ∨ ∃ i part, a = .broken i part
  · rcases hwrites with ⟨i, rfl⟩ | ⟨i, part, rfl⟩
    · cases h with
      | written hi hopen => exact written_accounted hi hopen hs
    · cases h with
      | broken hi hpart hopen => exact broken_accounted hi hpart hopen hs
  · obtain ⟨hwritten, hbroken⟩ := not_or.mp hwrites
    obtain ⟨hwire, hdelivered⟩ := step_wire h (not_exists.mp hwritten) (by simpa using hbroken)
    constructor
    · intro sock hsock hmid
      rw [hwire] at hmid
      have hopen : sock ∉ s.shut := fun hshut => hsock (step_shut h hshut)
      exact step_behind h hsock (congrFun hwire sock) (hs.midLine sock hopen hmid)
    · rw [hdelivered, hwire]
      exact hs.recorded

/-- A step leaves whole lines exactly when it sends nothing behind a broken one. -/
theorem step_whole (h : Step connectRetries s a t) (hs : Accounted s)
    (hwhole : ∀ d ∈ s.delivered, Whole s d) :
    (∀ d ∈ t.delivered, Whole t d) ↔ Undisturbed s a := by
  rw [forall_whole_iff (step_accounted h hs)]
  rw [forall_whole_iff hs] at hwhole
  by_cases hwritten : ∃ i, a = .written i
  · obtain ⟨i, rfl⟩ := hwritten
    cases h with
    | written hi hopen =>
      rw [← written_whole hi hopen hs]
      constructor
      · exact fun hall d hd => hall d (List.mem_append_right _ hd)
      · intro hnew d hd
        rcases List.mem_append.mp hd with hd | hd
        · exact hwhole d hd
        · exact hnew d hd
  · have hdelivered : t.delivered = s.delivered := by cases h <;> simp_all
    have hfree : Undisturbed s a := by cases a <;> simp_all [Undisturbed]
    rw [hdelivered]
    exact ⟨fun _ => hfree, fun _ => hwhole⟩

/-- Every behavior sent is a line of its own exactly as long as none is written behind a line
that another call broke off and has yet to close. -/
theorem lines_whole_iff {onTouch : Bool}
    (h : Trace (Step connectRetries) (initial ι onTouch) run s) :
    Throughout (fun t => ∀ d ∈ t.delivered, Whole t d) (initial ι onTouch) run ↔
      Along Undisturbed (initial ι onTouch) run :=
  h.throughout_iff (fun hs hstep => step_accounted hstep hs)
    (fun hs hwhole hstep => step_whole hstep hs hwhole) (accounted_initial onTouch)
    (by simp [initial])

end Steps

def idleCommand : BehaviorCommand := ⟨.calm, .idle, none, false, 3000⟩

theorem payload_brace (command : BehaviorCommand) : [123] <+: payload command := ⟨_, rfl⟩

/-- A send that breaks off tries again on a socket of its own. -/
theorem lines_whole_iff_retry : ∃ (run : List (Label Unit × State Unit)) (t : State Unit),
    Trace (Step 1) (initial Unit false) run t ∧
      t.delivered = [⟨idleCommand, 1, []⟩] ∧
      Throughout (fun t => ∀ d ∈ t.delivered, Whole t d) (initial Unit false) run := by
  have hrun : ∃ (run : List (Label Unit × State Unit)) (t : State Unit),
      Trace (Step 1) (initial Unit false) run t ∧ t.delivered = [⟨idleCommand, 1, []⟩] ∧
      Along Undisturbed (initial Unit false) run := by
    refine ⟨_, _, .cons (.send (i := ()) idleCommand rfl) (.cons (.ensureDead (i := ()) rfl rfl)
      (.cons (.connect (i := ()) rfl) (.cons (.install (i := ()) rfl rfl rfl)
        (.cons (.broken (i := ()) rfl (payload_brace idleCommand) (by simp [initial]))
          (.cons (.drop (i := ()) rfl) (.cons (.close (i := ()) rfl)
            (.cons (.ensureDead (i := ()) rfl rfl) (.cons (.connect (i := ()) rfl)
              (.cons (.install (i := ()) rfl rfl rfl)
                (.cons (.written (i := ()) rfl (by decide)) (.nil _))))))))))), rfl, ?_⟩
    simp [Along, Undisturbed, State.Behind, Call.broken]
  obtain ⟨run, t, htrace, hdelivered, halong⟩ := hrun
  exact ⟨run, t, htrace, hdelivered, (lines_whole_iff htrace).mpr halong⟩

/-- The second thread writes between the broken `sendall` of the first and its drop. -/
theorem merged_line : ∃ (run : List (Label Bool × State Bool)) (t : State Bool),
    Trace (Step 1) (initial Bool false) run t ∧ ∃ d ∈ t.delivered, ¬ Whole t d := by
  refine ⟨_, _, .cons (.send (i := true) idleCommand rfl) (.cons (.ensureDead (i := true) rfl rfl)
    (.cons (.connect (i := true) rfl) (.cons (.install (i := true) rfl rfl rfl)
      (.cons (.send (i := false) idleCommand rfl) (.cons (.ensureLive (i := false) rfl rfl)
        (.cons (.broken (i := true) rfl (payload_brace idleCommand) (by simp [initial]))
          (.cons (.written (i := false) rfl (by decide)) (.nil _)))))))),
    ⟨idleCommand, 0, [123]⟩, List.mem_singleton_self _, ?_⟩
  rintro ⟨hstart, -⟩
  exact absurd hstart (by decide)

end Hologotchi.Connection
