import Mathlib.Logic.Basic

/-! Actions that change a state and may raise: what was changed before stays changed. -/
namespace Hologotchi.Library.Raising

variable {ε σ α β : Type} {h : EStateM ε σ α} {f : α → EStateM ε σ β} {x : Except ε α} {s t u : σ}
  {a : α} {b : β} {e : ε}

/-- A check raises or not, and leaves the state alone. -/
def check (x : Except ε α) : EStateM ε σ α := fun s =>
  match x with
  | .ok a => .ok a s
  | .error e => .error e s

/-- An action that raises has changed nothing. -/
def Atomic (h : EStateM ε σ α) : Prop := ∀ s e t, h s = .error e t → t = s

theorem bind_ok_iff : (h >>= f) s = .ok b u ↔ ∃ a t, h s = .ok a t ∧ f a t = .ok b u := by
  change EStateM.bind h f s = _ ↔ _
  unfold EStateM.bind
  cases h s with
  | ok a t => simp [and_assoc]
  | error e t => simp

theorem bind_error_iff : (h >>= f) s = .error e u ↔
    h s = .error e u ∨ ∃ a t, h s = .ok a t ∧ f a t = .error e u := by
  change EStateM.bind h f s = _ ↔ _
  unfold EStateM.bind
  cases h s with
  | ok a t => simp [and_assoc]
  | error e t => simp

theorem bind_of_ok (hok : h s = .ok a t) : (h >>= f) s = f a t := by
  change EStateM.bind h f s = _
  simp only [EStateM.bind, hok]

theorem bind_of_error (herror : h s = .error e t) : (h >>= f) s = .error e t := by
  change EStateM.bind h f s = _
  simp only [EStateM.bind, herror]

theorem bind_get {f : σ → EStateM ε σ β} : (get >>= f) s = f s s := rfl

theorem bind_set {f : PUnit → EStateM ε σ β} : (set t >>= f) s = f ⟨⟩ t := rfl

theorem bind_check {f : α → EStateM ε σ β} : (check x >>= f) s = match x with
    | .ok a => f a s
    | .error e => .error e s := by
  cases x with
  | ok a => rfl
  | error e => rfl

theorem check_ok_iff : check x s = .ok a t ↔ x = .ok a ∧ s = t := by
  cases x with
  | ok b => simp [check]
  | error e => simp [check]

theorem check_error_iff : check x s = .error e t ↔ x = .error e ∧ s = t := by
  cases x with
  | ok b => simp [check]
  | error e => simp [check]

theorem atomic_check : Atomic (check x : EStateM ε σ α) := by
  intro s e t herror
  exact (check_error_iff.mp herror).2.symm

theorem atomic_throw : Atomic (throw e : EStateM ε σ α) := by
  rintro s e t ⟨⟩
  rfl

/-- What follows a check may raise as long as it is atomic. -/
theorem Atomic.after_check (hf : ∀ a, Atomic (f a)) : Atomic (check x >>= f) := by
  intro s e u herror
  rcases bind_error_iff.mp herror with herror | ⟨a, t, hok, herror⟩
  · exact atomic_check _ _ _ herror
  · obtain ⟨-, rfl⟩ := check_ok_iff.mp hok
    exact hf a _ _ _ herror

/-- What follows an atomic action must not raise. -/
theorem Atomic.before (hh : Atomic h) (hf : ∀ a s e t, f a s ≠ .error e t) :
    Atomic (h >>= f) := by
  intro s e u herror
  rcases bind_error_iff.mp herror with herror | ⟨a, t, -, herror⟩
  · exact hh _ _ _ herror
  · exact absurd herror (hf a _ _ _)

variable {bad : ε → Prop}

/-- The check raises an exception of the kind. -/
def Fails (bad : ε → Prop) (x : Except ε α) : Prop := ∃ e, x = .error e ∧ bad e

/-- The action raises an exception of the kind. -/
def Raises (bad : ε → Prop) (h : EStateM ε σ α) (s : σ) : Prop := ∃ e t, h s = .error e t ∧ bad e

theorem fails_ok : ¬ Fails bad (.ok a : Except ε α) := by
  rintro ⟨e, hok, -⟩
  cases hok

theorem fails_error : Fails bad (.error e : Except ε α) ↔ bad e := by
  constructor
  · rintro ⟨e, hok, hbad⟩
    cases hok
    exact hbad
  · exact fun hbad => ⟨e, rfl, hbad⟩

theorem fails_bind {y : α → Except ε β} :
    Fails bad (x >>= y) ↔ Fails bad x ∨ ∃ a, x = .ok a ∧ Fails bad (y a) := by
  cases x with
  | ok a => simp [Fails, bind, Except.bind]
  | error e => simp [Fails, bind, Except.bind]

theorem fails_eq_iff : Fails (· = e) x ↔ x = .error e := by
  simp [Fails]

theorem raises_check : Raises bad (check x : EStateM ε σ α) s ↔ Fails bad x := by
  simp [Raises, Fails, check_error_iff]

theorem raises_throw : Raises bad (throw e : EStateM ε σ α) s ↔ bad e := by
  constructor
  · rintro ⟨e, t, hthrow, hbad⟩
    cases hthrow
    exact hbad
  · exact fun hbad => ⟨e, s, rfl, hbad⟩

theorem raises_bind : Raises bad (h >>= f) s ↔
    Raises bad h s ∨ ∃ a t, h s = .ok a t ∧ Raises bad (f a) t := by
  constructor
  · rintro ⟨e, u, herror, hbad⟩
    rcases bind_error_iff.mp herror with herror | ⟨a, t, hok, herror⟩
    · exact .inl ⟨e, u, herror, hbad⟩
    · exact .inr ⟨a, t, hok, e, u, herror, hbad⟩
  · rintro (⟨e, u, herror, hbad⟩ | ⟨a, t, hok, e, u, herror, hbad⟩)
    · exact ⟨e, u, bind_error_iff.mpr (.inl herror), hbad⟩
    · exact ⟨e, u, bind_error_iff.mpr (.inr ⟨a, t, hok, herror⟩), hbad⟩

end Hologotchi.Library.Raising
