import Hologotchi.Connection.Arrival
import Hologotchi.Device.Screen

/-! From the threads of the host to the panel of the device: the commands that `BehaviorClient`
sends against the picture that is shown. -/
namespace Hologotchi.Device

open Display Firmware Library Protocol Render Touch

/-- What happens on the device, with the commands of the host in the place of their bytes. -/
inductive Order
  | commands (commands : List { c : BehaviorCommand // c.Valid })
  | acknowledged (gesture : Gesture)
  | pass (failure : Option ℕ)

/-- What some orders ask the device to show. -/
structure Asked where
  queued : List BehaviorUpdate := []
  acks : ℕ := 0
  passes : List (Option BehaviorUpdate) := []
  flushed : Option ℕ := none

namespace Asked

def step (a : Asked) : Order → Asked
  | .commands commands => { a with queued := a.queued ++ commands.map fun c => updateOf c.1 c.2 }
  | .acknowledged gesture => { a with
      queued := a.queued ++ [localAck gesture (UInt8.ofNat a.acks)]
      acks := a.acks + 1 }
  | .pass failure => { a with
      queued := []
      passes := a.passes ++ [a.queued.getLast?]
      flushed := failure.elim (some a.passes.length) fun _ => a.flushed }

def of (orders : List Order) : Asked := orders.foldl step {}

end Asked

/-- Which connection the device is on, and what it has read of it. -/
structure Reading where
  connection : ℕ := 0
  seen : List UInt8 := []

/-- A run of the host that has sent nothing but valid commands, and the socket behind each
connection that the device accepts. -/
structure Host (ι : Type*) where
  state : Connection.State ι
  valid : ∀ d ∈ state.delivered, d.command.Valid
  sock : ℕ → Connection.Socket

variable {ι : Type*}

namespace Host

variable (host : Host ι)

/-- The commands whose lines have been read. -/
def arrived (r : Reading) : List { c : BehaviorCommand // c.Valid } :=
  (host.state.arrived (host.sock r.connection) r.seen).pmap (fun d h => ⟨d.command, h⟩)
    fun d hd => host.valid d (List.mem_of_mem_filter hd)

/-- What a read brings is the commands whose lines it completes. -/
def order (r : Reading) : Event → Reading × Order
  | .connected => (⟨r.connection + 1, []⟩, .commands [])
  | .received bytes =>
    let next : Reading := { r with seen := r.seen ++ bytes }
    (next, .commands ((host.arrived next).drop (host.arrived r).length))
  | .acknowledged gesture => (r, .acknowledged gesture)
  | .pass failure => (r, .pass failure)

def orders (events : List Event) : List Order := answers host.order {} events

/-- The device reads what is on the wire of the connection. -/
def Reads (events : List Event) : Prop := ∀ past, past <+: events →
  let r := finalState host.order {} past
  r.seen <+: host.state.wire (host.sock r.connection)

end Host

variable {host : Host ι} {fromSlice : List UInt8 → Option (RawBehaviorUpdate × ℕ)} {r : Reading}
  {h : History} {a : Asked} {e : Event} {events : List Event}

/-- Both sides ask for the same. -/
structure Agrees (h : History) (r : Reading) (a : Asked) : Prop where
  seen : h.seen = r.seen
  queued : h.queued = a.queued
  acks : h.acks = a.acks
  passes : h.passes = a.passes
  flushed : h.flushed = a.flushed

/-- What a connection has been told in whole lines is the commands that have arrived on it. -/
theorem updates_seen (hslice : DeserializesFlat fromSlice)
    (hclean : Connection.Clean (host.sock r.connection) host.state)
    (hseen : r.seen <+: host.state.wire (host.sock r.connection)) :
    History.updates fromSlice r.seen =
      (host.arrived r).map fun c => updateOf c.1 c.2 := by
  have hvalid : ∀ d ∈ host.state.arrived (host.sock r.connection) r.seen, d.command.Valid :=
    fun d hd => host.valid d (List.mem_of_mem_filter hd)
  rw [History.updates, ← Connection.updatesIn_nonempty, hclean.lines r.seen hseen,
    Connection.updatesIn_lines hslice hvalid, Host.arrived, List.map_pmap]

theorem agrees_step (hslice : DeserializesFlat fromSlice)
    (hclean : ∀ k, Connection.Clean (host.sock k) host.state)
    (hseen : r.seen <+: host.state.wire (host.sock r.connection))
    (hnext : (host.order r e).1.seen <+:
      host.state.wire (host.sock (host.order r e).1.connection)) (hagrees : Agrees h r a) :
    Agrees (h.step fromSlice e) (host.order r e).1 (a.step (host.order r e).2) := by
  obtain ⟨hs, hq, ha, hp, hf⟩ := hagrees
  cases e with
  | connected => exact ⟨rfl, by simpa [History.step, Asked.step, Host.order] using hq, ha, hp, hf⟩
  | received bytes =>
    have hbefore := updates_seen hslice (hclean r.connection) hseen
    have hafter : History.updates fromSlice (r.seen ++ bytes) =
        (host.arrived { r with seen := r.seen ++ bytes }).map fun c => updateOf c.1 c.2 :=
      updates_seen (r := { r with seen := r.seen ++ bytes }) hslice (hclean r.connection) hnext
    refine ⟨congrArg (· ++ bytes) hs, ?_, ha, hp, hf⟩
    change h.queued ++ (History.updates fromSlice (h.seen ++ bytes)).drop
      (History.updates fromSlice h.seen).length = a.queued ++ List.map _ (List.drop _ _)
    rw [hs, hq, hafter, hbefore, List.length_map, List.map_drop]
  | acknowledged gesture =>
    refine ⟨hs, ?_, congrArg (· + 1) ha, hp, hf⟩
    change h.queued ++ [localAck gesture (UInt8.ofNat h.acks)] =
      a.queued ++ [localAck gesture (UInt8.ofNat a.acks)]
    rw [hq, ha]
  | pass failure =>
    refine ⟨hs, rfl, ha, ?_, ?_⟩
    · change h.passes ++ [h.queued.getLast?] = a.passes ++ [a.queued.getLast?]
      rw [hp, hq]
    · change failure.elim (some h.passes.length) (fun _ => h.flushed) =
        failure.elim (some a.passes.length) fun _ => a.flushed
      rw [hp, hf]

theorem agrees_run (hslice : DeserializesFlat fromSlice)
    (hclean : ∀ k, Connection.Clean (host.sock k) host.state) (hreads : host.Reads events) :
    Agrees (History.of fromSlice events) (finalState host.order {} events)
      (Asked.of (host.orders events)) := by
  induction events using List.reverseRecOn with
  | nil => exact ⟨rfl, rfl, rfl, rfl, rfl⟩
  | append_singleton events e ih =>
    have hseen := hreads events (List.prefix_append events [e])
    have hnext := hreads (events ++ [e]) List.prefix_rfl
    have hagrees := ih fun past hpast => hreads past (hpast.trans (List.prefix_append events [e]))
    rw [finalState_append] at hnext ⊢
    have hasked : Asked.of (host.orders (events ++ [e])) =
        (Asked.of (host.orders events)).step
          (host.order (finalState host.order {} events) e).2 := by
      rw [Asked.of, Asked.of, Host.orders, Host.orders, answers_append, List.foldl_append]
      rfl
    rw [History.of_concat, hasked]
    exact agrees_step hslice hclean hseen hnext hagrees

theorem arrived_commands (host : Host ι) (r : Reading) : (host.arrived r).map (·.1) =
    (host.state.arrived (host.sock r.connection) r.seen).map (·.command) := by
  rw [Host.arrived, List.map_pmap]
  exact List.pmap_eq_map ..

/-- When a connection has been read to its end, all that was sent on it has arrived. -/
theorem arrived_end (haccounted : Connection.Accounted host.state)
    (hend : r.seen = host.state.wire (host.sock r.connection)) :
    (host.arrived r).map (·.1) =
      (host.state.delivered.filter (·.sock = host.sock r.connection)).map (·.command) := by
  rw [arrived_commands, ← Connection.arrived_all haccounted, ← hend]

section Runs

variable [R : SpiRuntime] [DecidableEq ι] {connectRetries : ℕ} {onTouch : Bool}
  {run : List (Connection.Label ι × Connection.State ι)}

/-- From the threads of the host to the panel, over any number of connections on which no write
breaks off, read in any pieces: the panel shows the picture of the last pass that was flushed, with
the last command that had arrived in a whole line by then, or the last touch acknowledged after it;
and when a connection has been read to its end, all that was sent on it has arrived. -/
theorem panel_shows_commands (hslice : DeserializesFlat fromSlice) (host : Host ι)
    (h : Trace (Connection.Step connectRetries) (Connection.initial ι onTouch) run host.state)
    (hunbroken : ∀ k,
      Along (Connection.Unbroken (host.sock k)) (Connection.initial ι onTouch) run)
    (hreads : host.Reads events) (hearly : ∀ e ∈ events, e.Early) (art : Art) (checks : Bool)
    (frame : Vector UInt8 frameCapacity)
    (hroom : Room checks (Asked.of (host.orders events)).passes.length) :
    let asked := Asked.of (host.orders events)
    let r := finalState host.order {} events
    (∃ b, (Board.start frame).run art checks fromSlice events = .ok b ∧
      match asked.flushed with
      | none => b.chip.Shows .cube .blank
      | some i => ∃ fb, picture art checks asked.passes i = .ok fb ∧ b.chip.Shows .cube fb) ∧
    (r.seen = host.state.wire (host.sock r.connection) → (host.arrived r).map (·.1) =
      (host.state.delivered.filter (·.sock = host.sock r.connection)).map (·.command)) := by
  intro asked r
  have hclean (k : ℕ) : Connection.Clean (host.sock k) host.state :=
    Connection.clean_run h (hunbroken k)
  have hagrees : Agrees (History.of fromSlice events) r asked := agrees_run hslice hclean hreads
  refine ⟨?_, arrived_end (hclean r.connection).toAccounted⟩
  rw [← hagrees.passes] at hroom
  obtain ⟨b, hrun, htracks⟩ := tracks_run art checks fromSlice frame events hearly hroom
  obtain ⟨shown, hshowing, hpicture⟩ := htracks.shown
  rw [hagrees.flushed, hagrees.passes] at hpicture
  refine ⟨b, hrun, ?_⟩
  cases hflushed : asked.flushed with
  | none =>
    simp only [hflushed] at hpicture
    exact hpicture ▸ hshowing.shows
  | some i =>
    simp only [hflushed] at hpicture
    exact ⟨shown, hpicture.2, hshowing.shows⟩

end Runs

/-- How much of the two behaviors has arrived. -/
theorem arrived_two_threads {t : Connection.State Bool}
    (h : t.delivered = [⟨Connection.idleCommand, 0, []⟩, ⟨Connection.playCommand, 0,
      Connection.payload Connection.idleCommand ++ [Connection.newline]⟩]) (seen : List UInt8) :
    (t.arrived 0 seen).map (·.command) =
      if 206 ≤ seen.length then [Connection.idleCommand, Connection.playCommand]
      else if 102 ≤ seen.length then [Connection.idleCommand] else [] := by
  have hidle : (Connection.payload Connection.idleCommand).length = 102 := by decide +kernel
  have hplay : (Connection.payload Connection.playCommand).length = 103 := by decide +kernel
  simp only [Connection.State.arrived, h, Connection.Delivery.upTo, List.filter_cons,
    List.filter_nil, List.length_append, List.length_cons, List.length_nil, hidle, hplay]
  by_cases hboth : 206 ≤ seen.length
  · simp [hboth, (by omega : 102 ≤ seen.length)]
  · by_cases hfirst : 102 ≤ seen.length
    · simp [hfirst, hboth]
    · simp [hfirst, hboth]

/-- The first behavior is read and shown. The second one arrives in two reads, and its picture is
only shown by the second pass after that, as the flush of the first one fails. -/
def twoThreadsEvents : List Event :=
  [.connected, .received (Connection.payload Connection.idleCommand), .pass none,
    .received (Connection.newline :: (Connection.payload Connection.playCommand).take 50),
    .received ((Connection.payload Connection.playCommand).drop 50), .pass (some 3), .pass none]

theorem panel_shows_commands_two_threads : ∃ b,
    (Board.start (R := handingOver) (.replicate _ 0)).run (R := handingOver) plainArt true
      fromSliceFlat twoThreadsEvents = .ok b ∧
    ∃ fb, picture plainArt true [some ⟨.calm, .idle, none, false, 3000⟩,
        some ⟨.happy, .play, none, false, 3000⟩, none] 2 = .ok fb ∧ b.chip.Shows .cube fb := by
  obtain ⟨run, t, htrace, hdelivered, hwire, -, hunbroken⟩ := Connection.two_threads_run
  have hvalid := Connection.two_threads_valid hdelivered
  let host : Host Bool := ⟨t, hvalid, fun _ => 0⟩
  let idle : { c : BehaviorCommand // c.Valid } := ⟨Connection.idleCommand, Connection.valid_idle⟩
  let play : { c : BehaviorCommand // c.Valid } := ⟨Connection.playCommand, Connection.valid_play⟩
  let first := Connection.payload Connection.idleCommand
  let begun := first ++ Connection.newline :: (Connection.payload Connection.playCommand).take 50
  let whole := begun ++ (Connection.payload Connection.playCommand).drop 50
  have harrived (seen : List UInt8) : host.arrived ⟨1, seen⟩ =
      if 206 ≤ seen.length then [idle, play] else if 102 ≤ seen.length then [idle] else [] := by
    apply List.map_injective_iff.mpr (Subtype.val_injective (p := BehaviorCommand.Valid))
    refine (arrived_commands host ⟨1, seen⟩).trans ?_
    refine (arrived_two_threads hdelivered seen).trans ?_
    split_ifs <;> rfl
  have hnone : host.arrived ⟨1, []⟩ = [] := harrived []
  have hfirst : host.arrived ⟨1, first⟩ = [idle] := (harrived first).trans (by decide +kernel)
  have hpart : host.arrived ⟨1, begun⟩ = [idle] := (harrived begun).trans (by decide +kernel)
  have hall : host.arrived ⟨1, whole⟩ = [idle, play] := (harrived whole).trans (by decide +kernel)
  have hasked : Asked.of (host.orders twoThreadsEvents) =
      ⟨[], 0, [some ⟨.calm, .idle, none, false, 3000⟩, some ⟨.happy, .play, none, false, 3000⟩,
        none], some 2⟩ := by
    have horders : host.orders twoThreadsEvents = [.commands [],
        .commands ((host.arrived ⟨1, first⟩).drop (host.arrived ⟨1, []⟩).length), .pass none,
        .commands ((host.arrived ⟨1, begun⟩).drop (host.arrived ⟨1, first⟩).length),
        .commands ((host.arrived ⟨1, whole⟩).drop (host.arrived ⟨1, begun⟩).length),
        .pass (some 3), .pass none] := rfl
    rw [horders, hnone, hfirst, hpart, hall]
    rfl
  have hreads : host.Reads twoThreadsEvents := by
    intro past hpast r
    have hsent : whole = t.wire 0 := by
      simp only [whole, begun, first, hwire, List.append_assoc, List.cons_append, List.nil_append,
        List.take_append_drop]
    have hfirst : first <+: whole := (List.prefix_append _ _).trans (List.prefix_append _ _)
    have hbegun : begun <+: whole := List.prefix_append _ _
    have hseen : r.seen <+: whole := by
      rw [List.prefix_iff_eq_take] at hpast
      generalize past.length = n at hpast
      subst hpast
      rcases n with - | - | - | - | - | - | - | n
      · exact List.nil_prefix
      · exact List.nil_prefix
      · exact hfirst
      · exact hfirst
      · exact hbegun
      · exact List.prefix_rfl
      · exact List.prefix_rfl
      · have hlast : twoThreadsEvents.take (n + 7) = twoThreadsEvents :=
          List.take_of_length_le (by simp [twoThreadsEvents])
        simp only [r, hlast]
        exact List.prefix_rfl
    exact hsent ▸ hseen
  have hroom : Room true (Asked.of (host.orders twoThreadsEvents)).passes.length := by
    rw [hasked]
    exact fun _ => by decide
  have hshown := panel_shows_commands (R := handingOver) deserializesFlat_fromSliceFlat host htrace
    (fun _ => hunbroken) hreads (by decide) plainArt true (.replicate _ 0) hroom
  rw [hasked] at hshown
  exact hshown.1

end Hologotchi.Device
