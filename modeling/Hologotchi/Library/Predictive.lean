import Mathlib.Data.List.Basic

/-! Coding values one by one against what came before them. -/
namespace Hologotchi.Library.Predictive

variable {σ α γ ε : Type*}

/-- Coder and decoder share a state, which moves on with the values. -/
structure Coder (σ α γ ε : Type*) where
  encode : σ → α → γ
  decode : σ → γ → Except ε α
  next : σ → α → σ

namespace Coder

variable {c : Coder σ α γ ε} {s : σ} {vs : List α}

def encodeAll (c : Coder σ α γ ε) : σ → List α → List γ
  | _, [] => []
  | s, v :: vs => c.encode s v :: c.encodeAll (c.next s v) vs

def decodeAll (c : Coder σ α γ ε) : σ → List γ → Except ε (List α)
  | _, [] => .ok []
  | s, code :: codes => do
    let v ← c.decode s code
    let vs ← c.decodeAll (c.next s v) codes
    .ok (v :: vs)

@[simp] theorem encodeAll_nil (s : σ) : c.encodeAll s [] = [] := rfl

@[simp] theorem encodeAll_cons (s : σ) (v : α) (vs : List α) :
    c.encodeAll s (v :: vs) = c.encode s v :: c.encodeAll (c.next s v) vs := rfl

theorem mem_encodeAll {code : γ} (h : code ∈ c.encodeAll s vs) :
    ∃ s' v, v ∈ vs ∧ code = c.encode s' v := by
  induction vs generalizing s with
  | nil => contradiction
  | cons v vs ih =>
    rcases List.mem_cons.mp h with rfl | h
    · exact ⟨s, v, List.mem_cons_self, rfl⟩
    · obtain ⟨s', w, hw, rfl⟩ := ih h
      exact ⟨s', w, List.mem_cons_of_mem v hw, rfl⟩

@[simp] theorem length_encodeAll (s : σ) (vs : List α) :
    (c.encodeAll s vs).length = vs.length := by
  induction vs generalizing s with
  | nil => rfl
  | cons v vs ih => simp [ih]

theorem decodeAll_cons_ok {code : γ} {codes : List γ} {v : α} (h : c.decode s code = .ok v) :
    c.decodeAll s (code :: codes) =
      (c.decodeAll (c.next s v) codes).map (v :: ·) := by
  rw [decodeAll, h]
  change (c.decodeAll (c.next s v) codes).bind (fun vs => .ok (v :: vs)) = _
  cases c.decodeAll (c.next s v) codes <;> rfl

/-- What is coded in a state the next `n` values can be decoded from comes back. -/
theorem decodeAll_encodeAll {I : ℕ → σ → Prop} {P : α → Prop}
    (hstep : ∀ {n s v}, I (n + 1) s → P v →
      c.decode s (c.encode s v) = .ok v ∧ I n (c.next s v))
    (hs : I vs.length s) (hvs : ∀ v ∈ vs, P v) : c.decodeAll s (c.encodeAll s vs) = .ok vs := by
  induction vs generalizing s with
  | nil => rfl
  | cons v vs ih =>
    obtain ⟨hv, hrest⟩ := List.forall_mem_cons.mp hvs
    obtain ⟨hdecode, hnext⟩ := hstep hs hv
    rw [encodeAll_cons, decodeAll_cons_ok hdecode, ih hnext hrest]
    rfl

/-- Where only its own code decodes to a value, codes that are decoded are those of the values. -/
theorem encodeAll_of_decodeAll {I : ℕ → σ → Prop} {codes : List γ}
    (hstep : ∀ {n s code v}, I (n + 1) s → c.decode s code = .ok v →
      c.encode s v = code ∧ I n (c.next s v))
    (hs : I codes.length s) (h : c.decodeAll s codes = .ok vs) : c.encodeAll s vs = codes := by
  induction codes generalizing s vs with
  | nil =>
    cases h
    rfl
  | cons code codes ih =>
    cases hv : c.decode s code with
    | error e =>
      rw [decodeAll, hv] at h
      contradiction
    | ok v =>
      obtain ⟨hcode, hnext⟩ := hstep hs hv
      rw [decodeAll_cons_ok hv] at h
      cases hrest : c.decodeAll (c.next s v) codes with
      | error e =>
        rw [hrest] at h
        contradiction
      | ok rest =>
        rw [hrest] at h
        cases h
        rw [encodeAll_cons, hcode, ih hnext hrest]

end Coder

end Hologotchi.Library.Predictive
