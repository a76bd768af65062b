import Hologotchi.Firmware.Behavior
import Hologotchi.Library.Recent
import Hologotchi.Library.Runs
import Mathlib.Data.Rat.Floor
import Mathlib.Algebra.Order.Field.Basic

/-! The scene the renderer draws (`device/src/render.rs`, with the loop of `bin/main.rs`). -/
namespace Hologotchi.Render

open Protocol Firmware Library Recent

def blinkPeriod : UInt32 := 96
def blinkLen : UInt32 := 6
def lookPeriod : UInt32 := 280
def lookStart : UInt32 := 150
def lookLen : UInt32 := 62
/-- The frame time of the render task. -/
def frameMs : UInt32 := 50

/-- `u32::saturating_add`. -/
def saturatingAdd (a b : UInt32) : UInt32 := UInt32.ofNat (min (a.toNat + b.toNat) (2 ^ 32 - 1))

/-- `u32::saturating_sub`. -/
def saturatingSub (a b : UInt32) : UInt32 := if b ≤ a then a - b else 0

/-- The number of frames a behavior stays active for; a division by zero panics. -/
def framesFor (update : BehaviorUpdate) (frameMs : UInt32) : UInt16 :=
  let rounded := saturatingAdd update.durationMs (saturatingSub frameMs 1) / frameMs
  (clamp rounded 1 65535).toUInt16

structure ActiveBehavior where
  behavior : BehaviorUpdate
  framesLeft : UInt16
  elapsed : UInt16

structure Scene where
  frame : UInt32
  active : Option ActiveBehavior

/-- What `draw` makes a frame from. -/
structure Shown where
  animation : Animation
  animFrame : UInt32
  text : Option (HeaplessString textCapacity)
  alert : Bool

namespace Scene

def new : Scene := ⟨0, none⟩

def applyBehavior (s : Scene) (behavior : BehaviorUpdate) (frameMs : UInt32) : Scene :=
  { s with active := some ⟨behavior, framesFor behavior frameMs, 0⟩ }

def tick (s : Scene) : Scene where
  frame := s.frame + 1
  active := s.active.bind fun active =>
    let elapsed := if active.elapsed = 65535 then active.elapsed else active.elapsed + 1
    if 1 < active.framesLeft then some { active with elapsed, framesLeft := active.framesLeft - 1 }
    else none

def localAnimation (s : Scene) : Animation :=
  if s.frame % blinkPeriod < blinkLen then .blink
  else
    let lookPhase := s.frame % lookPeriod
    if lookStart ≤ lookPhase ∧ lookPhase < lookStart + lookLen then .lookAround else .idle

/-- What `draw` shows without an active behavior. -/
def localShown (s : Scene) : Shown where
  animation := s.localAnimation
  animFrame :=
    match s.localAnimation with
    | .blink => s.frame % blinkPeriod
    | .lookAround => saturatingSub (s.frame % lookPeriod) lookStart
    | _ => s.frame
  text := none
  alert := false

def drawn (s : Scene) : Shown :=
  match s.active with
  | some active =>
    ⟨active.behavior.animation, active.elapsed.toUInt32, active.behavior.text,
      active.behavior.alert⟩
  | none => s.localShown

/-- One pass of the render loop: apply an update if there is one, draw, tick. -/
def cycle (frameMs : UInt32) (s : Scene) (update : Option BehaviorUpdate) : Scene × Shown :=
  let s := match update with
    | some update => s.applyBehavior update frameMs
    | none => s
  (s.tick, s.drawn)

end Scene

variable {update : BehaviorUpdate} {frameMs : UInt32} {s : Scene}
  {log cycles : List (Option BehaviorUpdate)} {i k : ℕ}

/-- The number of cycles a behavior is shown for. -/
def shownCycles (frameMs : UInt32) (update : BehaviorUpdate) : ℕ :=
  min 65535 (max 1 ⌈(update.durationMs.toNat : ℚ) / frameMs.toNat⌉₊)

/-- A duration the parser gives. -/
def InRange (update : BehaviorUpdate) : Prop :=
  Firmware.minDurationMs ≤ update.durationMs ∧ update.durationMs ≤ Firmware.maxDurationMs

theorem ceil_div_eq (d : ℕ) {f : ℕ} (hf : 0 < f) : ⌈(d : ℚ) / f⌉₊ = (d + (f - 1)) / f := by
  have hcast : (0 : ℚ) < f := by exact_mod_cast hf
  refine eq_of_forall_ge_iff fun n => ?_
  rw [Nat.ceil_le, div_le_iff₀ hcast, Nat.div_le_iff_le_mul_add_pred hf]
  norm_cast
  rw [Nat.mul_comm f]
  omega

theorem toNat_saturatingAdd (a b : UInt32) :
    (saturatingAdd a b).toNat = min (a.toNat + b.toNat) (2 ^ 32 - 1) := by
  rw [saturatingAdd, UInt32.toNat_ofNat']
  omega

theorem toNat_saturatingSub (a b : UInt32) : (saturatingSub a b).toNat = a.toNat - b.toNat := by
  rw [saturatingSub]
  split
  · exact UInt32.toNat_sub_of_le a b ‹_›
  · rename_i h
    rw [UInt32.not_le, UInt32.lt_iff_toNat_lt] at h
    simp only [UInt32.toNat_zero]
    omega

theorem toNat_clamp (x low high : UInt32) (h : low ≤ high) :
    (clamp x low high).toNat = min high.toNat (max low.toNat x.toNat) := by
  rw [UInt32.le_iff_toNat_le] at h
  rw [clamp]
  split_ifs with hlow hhigh
  · rw [UInt32.lt_iff_toNat_lt] at hlow
    omega
  · rw [UInt32.lt_iff_toNat_lt] at hlow hhigh
    omega
  · rw [UInt32.lt_iff_toNat_lt] at hlow hhigh
    omega

/-- The sum saturates only at frame times above every duration, where both sides are one. -/
theorem rounded_eq {d f : ℕ} (hf : 0 < f) (hlt : f < 2 ^ 32) (hd : 1 ≤ d) (hle : d ≤ 15000) :
    min (d + (f - 1)) (2 ^ 32 - 1) / f = (d + (f - 1)) / f := by
  by_cases hsum : d + (f - 1) ≤ 2 ^ 32 - 1
  · rw [min_eq_left hsum]
  · have hone : (2 ^ 32 - 1) / f = 1 := by
      rw [Nat.div_eq_iff hf]
      omega
    have hsame : (d + (f - 1)) / f = 1 := by
      rw [Nat.div_eq_iff hf]
      omega
    rw [min_eq_right (by omega), hone, hsame]

theorem framesFor_eq (hms : 0 < frameMs) (h : InRange update) :
    (framesFor update frameMs).toNat = shownCycles frameMs update := by
  have hf : 0 < frameMs.toNat := by
    rwa [UInt32.lt_iff_toNat_lt] at hms
  obtain ⟨hmin, hmax⟩ := h
  rw [UInt32.le_iff_toNat_le] at hmin hmax
  have hd : 1 ≤ update.durationMs.toNat := Nat.le_trans (by decide) hmin
  have hle : update.durationMs.toNat ≤ 15000 := hmax
  have hrounded := rounded_eq hf frameMs.toNat_lt hd hle
  rw [framesFor, UInt32.toNat_toUInt16, toNat_clamp _ _ _ (by decide), UInt32.toNat_div,
    toNat_saturatingAdd, toNat_saturatingSub, UInt32.toNat_one, hrounded, shownCycles,
    ceil_div_eq _ hf]
  refine Nat.mod_eq_of_lt ?_
  have hhigh : (65535 : UInt32).toNat = 65535 := rfl
  omega

theorem shownCycles_bounds (frameMs : UInt32) (update : BehaviorUpdate) :
    1 ≤ shownCycles frameMs update ∧ shownCycles frameMs update ≤ 65535 := by
  unfold shownCycles
  omega

/-- What a scene shows in the last cycle of a log of updates. -/
def Shows (frameMs : UInt32) (log : List (Option BehaviorUpdate)) (s : Scene) : Prop :=
  match s.active with
  | some active => recent log = some (active.behavior, active.elapsed.toNat) ∧
      active.elapsed.toNat + active.framesLeft.toNat = shownCycles frameMs active.behavior ∧
      0 < active.framesLeft.toNat
  | none => ∀ update n, recent log = some (update, n) → shownCycles frameMs update ≤ n

theorem shows_new (frameMs : UInt32) : Shows frameMs [none] Scene.new := by
  intro update n h
  simp [recent, later] at h

theorem shows_applyBehavior (hms : 0 < frameMs) (h : InRange update) :
    Shows frameMs (log ++ [some update]) (s.applyBehavior update frameMs) := by
  have hpos := (shownCycles_bounds frameMs update).1
  refine ⟨recent_concat _ _, ?_, ?_⟩
  · rw [framesFor_eq hms h, UInt16.toNat_zero, Nat.zero_add]
  · rwa [framesFor_eq hms h]

/-- Without a behavior the last one has been shown long enough, and is not shown again. -/
theorem shows_tick_none {frame : UInt32} (h : Shows frameMs log ⟨frame, none⟩) :
    Shows frameMs (log ++ [none]) (Scene.tick ⟨frame, none⟩) := by
  intro update n hrecent
  rw [recent_concat] at hrecent
  obtain ⟨⟨older, m⟩, hlog, hage⟩ := Option.map_eq_some_iff.mp hrecent
  simp only [Prod.mk.injEq] at hage
  obtain ⟨rfl, rfl⟩ := hage
  have hle := h older m hlog
  omega

/-- The elapsed cycles are still below the largest number of 16 bits. -/
theorem shows_elapsed {frame : UInt32} {active : ActiveBehavior}
    (h : Shows frameMs log ⟨frame, some active⟩) :
    active.elapsed ≠ 65535 ∧ (active.elapsed + 1).toNat = active.elapsed.toNat + 1 := by
  obtain ⟨-, hsum, hleft⟩ := h
  have hbound := (shownCycles_bounds frameMs active.behavior).2
  constructor
  · intro heq
    rw [heq] at hsum
    have hmax : (65535 : UInt16).toNat = 65535 := rfl
    omega
  · have hone : (1 : UInt16).toNat = 1 := rfl
    rw [UInt16.toNat_add, hone]
    omega

/-- A behavior goes on with one frame less, and ends with the last one. -/
theorem shows_tick_some {frame : UInt32} {active : ActiveBehavior}
    (h : Shows frameMs log ⟨frame, some active⟩) :
    Shows frameMs (log ++ [none]) (Scene.tick ⟨frame, some active⟩) := by
  obtain ⟨hunsaturated, hnext⟩ := shows_elapsed h
  obtain ⟨hrecent, hsum, hleft⟩ := h
  have hone : (1 : UInt16).toNat = 1 := rfl
  have hlater : recent (log ++ [none]) = some (active.behavior, active.elapsed.toNat + 1) := by
    rw [recent_concat, hrecent]
    rfl
  by_cases hmore : 1 < active.framesLeft
  · have hticked : Scene.tick ⟨frame, some active⟩ = ⟨frame + 1, some { active with
        elapsed := active.elapsed + 1
        framesLeft := active.framesLeft - 1 }⟩ := by
      simp [Scene.tick, hunsaturated, hmore]
    have hfewer : (active.framesLeft - 1).toNat = active.framesLeft.toNat - 1 :=
      UInt16.toNat_sub_of_le _ _ (UInt16.le_of_lt hmore)
    rw [UInt16.lt_iff_toNat_lt, hone] at hmore
    rw [hticked]
    refine ⟨?_, ?_, ?_⟩
    · rw [hlater, hnext]
    · simp only [hnext, hfewer]
      omega
    · simp only [hfewer]
      omega
  · have hticked : Scene.tick ⟨frame, some active⟩ = ⟨frame + 1, none⟩ := by
      simp [Scene.tick, hmore]
    rw [UInt16.lt_iff_toNat_lt, hone] at hmore
    rw [hticked]
    intro update n hlog
    rw [hlater] at hlog
    simp only [Option.some.injEq, Prod.mk.injEq] at hlog
    obtain ⟨rfl, rfl⟩ := hlog
    omega

/-- The frames left and the elapsed ones are always those of the behavior. -/
theorem shows_tick (h : Shows frameMs log s) : Shows frameMs (log ++ [none]) s.tick := by
  obtain ⟨frame, active⟩ := s
  cases active with
  | none => exact shows_tick_none h
  | some active => exact shows_tick_some h

/-- The scene one pass of the loop draws. -/
def drawing (frameMs : UInt32) (s : Scene) (update : Option BehaviorUpdate) : Scene :=
  match update with
  | some update => s.applyBehavior update frameMs
  | none => s

theorem shows_drawing (hms : 0 < frameMs) {entry : Option BehaviorUpdate}
    (hentry : ∀ update ∈ entry, InRange update) (h : Shows frameMs (log ++ [none]) s) :
    Shows frameMs (log ++ [entry]) (drawing frameMs s entry) := by
  cases entry with
  | none => exact h
  | some update => exact shows_applyBehavior hms (hentry update rfl)

theorem cycle_eq (s : Scene) (entry : Option BehaviorUpdate) : s.cycle frameMs entry =
    ((drawing frameMs s entry).tick, (drawing frameMs s entry).drawn) := by
  cases entry <;> rfl

theorem shows_run (hms : 0 < frameMs)
    (hrange : ∀ update, some update ∈ cycles → InRange update) :
    Shows frameMs (cycles ++ [none]) (finalState (Scene.cycle frameMs) Scene.new cycles) := by
  induction cycles using List.reverseRecOn with
  | nil => exact shows_new frameMs
  | append_singleton cycles entry ih =>
    have hbefore := ih fun update h => hrange update (List.mem_append_left _ h)
    have hentry : ∀ update ∈ entry, InRange update := by
      rintro update rfl
      exact hrange update (by simp)
    rw [finalState_append, finalState_cons, finalState_nil, cycle_eq]
    exact shows_tick (shows_drawing hms hentry hbefore)

theorem frame_run (frameMs : UInt32) (cycles : List (Option BehaviorUpdate)) :
    (finalState (Scene.cycle frameMs) Scene.new cycles).frame = UInt32.ofNat cycles.length := by
  induction cycles using List.reverseRecOn with
  | nil => rfl
  | append_singleton cycles entry ih =>
    rw [finalState_append, finalState_cons, finalState_nil, cycle_eq, List.length_append]
    cases entry with
    | none => simp [drawing, Scene.tick, ih]
    | some update => simp [drawing, Scene.applyBehavior, Scene.tick, ih]

theorem localAnimation_mem (s : Scene) : s.localAnimation ∈ [.idle, .blink, .lookAround] := by
  unfold Scene.localAnimation
  split
  · simp
  · dsimp only
    split
    · simp
    · simp

theorem frame_drawing (s : Scene) (entry : Option BehaviorUpdate) :
    (drawing frameMs s entry).frame = s.frame := by
  cases entry <;> rfl

end Hologotchi.Render
