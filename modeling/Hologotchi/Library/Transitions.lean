import Mathlib.Data.List.Basic

/-! Runs of a labelled transition system: what they keep, and which steps are to blame when
they do not keep it. -/
namespace Hologotchi.Library

variable {σ α : Type*} {step : σ → α → σ → Prop}

/-- A run from one state to another: the steps taken, each with the state it led to. -/
inductive Trace (step : σ → α → σ → Prop) : σ → List (α × σ) → σ → Prop
  | nil (s : σ) : Trace step s [] s
  | cons {s t u : σ} {a : α} {run : List (α × σ)} (first : step s a t)
      (rest : Trace step t run u) : Trace step s ((a, t) :: run) u

/-- Every step of the run meets the condition on the state it is taken in. -/
def Along (C : σ → α → Prop) : σ → List (α × σ) → Prop
  | _, [] => True
  | s, (a, t) :: run => C s a ∧ Along C t run

/-- The property holds in every state of the run. -/
def Throughout (P : σ → Prop) (s : σ) (run : List (α × σ)) : Prop := P s ∧ ∀ e ∈ run, P e.2

variable {s t : σ} {run : List (α × σ)} {P J : σ → Prop} {C : σ → α → Prop}

theorem Trace.single {a : α} (h : step s a t) : Trace step s [(a, t)] t := .cons h (.nil t)

/-- What every step with an admitted label keeps, every run of such steps keeps. -/
theorem Trace.keeps (admitted : α → Prop)
    (hstep : ∀ {s a t}, admitted a → P s → step s a t → P t) (h : Trace step s run t)
    (hrun : ∀ e ∈ run, admitted e.1) (hs : P s) : P t := by
  induction h with
  | nil => exact hs
  | cons first _ ih =>
    have hfirst := hstep (hrun _ List.mem_cons_self) hs first
    exact ih (fun e he => hrun e (List.mem_cons_of_mem _ he)) hfirst

/-- What every step with an admitted label shows of its label while it keeps the rest, every
label of a run of such steps shows. -/
theorem Trace.labels (admitted : α → Prop) {Q : α → Prop}
    (hstep : ∀ {s a t}, admitted a → P s → step s a t → Q a ∧ P t) (h : Trace step s run t)
    (hrun : ∀ e ∈ run, admitted e.1) (hs : P s) : ∀ e ∈ run, Q e.1 := by
  induction h with
  | nil => simp
  | cons first _ ih =>
    obtain ⟨hfirst, hnext⟩ := hstep (hrun _ List.mem_cons_self) hs first
    have hrest := ih (fun e he => hrun e (List.mem_cons_of_mem _ he)) hnext
    exact List.forall_mem_cons.mpr ⟨hfirst, hrest⟩

/-- What every step keeps, every run keeps. -/
theorem Trace.invariant (hstep : ∀ {s a t}, P s → step s a t → P t) (h : Trace step s run t)
    (hs : P s) : P t :=
  h.keeps (fun _ => True) (fun _ => hstep) (fun _ _ => trivial) hs

/-- What every step that meets the condition keeps, a run of such steps has throughout. -/
theorem Trace.throughout_of_along (hstep : ∀ {s a t}, P s → C s a → step s a t → P t)
    (h : Trace step s run t) (hs : P s) (hrun : Along C s run) : Throughout P s run := by
  induction h with
  | nil => exact ⟨hs, by simp⟩
  | cons first _ ih =>
    obtain ⟨hc, hrest⟩ := hrun
    obtain ⟨hfirst, hlater⟩ := ih (hstep hs hc first) hrest
    exact ⟨hs, List.forall_mem_cons.mpr ⟨hfirst, hlater⟩⟩

/-- So its last state has it. -/
theorem Trace.of_along (hstep : ∀ {s a t}, P s → C s a → step s a t → P t)
    (h : Trace step s run t) (hs : P s) (hrun : Along C s run) : P t := by
  induction h with
  | nil => exact hs
  | cons first _ ih =>
    obtain ⟨hc, hrest⟩ := hrun
    exact ih (hstep hs hc first) hrest

theorem Throughout.mono {Q : σ → Prop} (h : Throughout P s run) (hpq : ∀ s, P s → Q s) :
    Throughout Q s run :=
  ⟨hpq _ h.1, fun e he => hpq _ (h.2 e he)⟩

/-- Where a step from a good state leads to a good one exactly when it meets the condition, a
run stays good exactly when all its steps meet it. -/
theorem Trace.throughout_iff (hkeep : ∀ {s a t}, J s → step s a t → J t)
    (hstep : ∀ {s a t}, J s → P s → step s a t → (P t ↔ C s a)) (h : Trace step s run t)
    (hj : J s) (hp : P s) : Throughout P s run ↔ Along C s run := by
  induction h with
  | nil => exact ⟨fun _ => trivial, fun _ => ⟨hp, by simp⟩⟩
  | @cons s t u a run first _ ih =>
    have hmeets := hstep hj hp first
    constructor
    · rintro ⟨-, hall⟩
      have ht : P t := hall _ List.mem_cons_self
      have hrest : Throughout P t run := ⟨ht, fun e he => hall e (List.mem_cons_of_mem _ he)⟩
      exact ⟨hmeets.mp ht, (ih (hkeep hj first) ht).mp hrest⟩
    · rintro ⟨hc, hrest⟩
      have ht : P t := hmeets.mpr hc
      obtain ⟨-, hall⟩ := (ih (hkeep hj first) ht).mpr hrest
      exact ⟨hp, List.forall_mem_cons.mpr ⟨ht, hall⟩⟩

end Hologotchi.Library
