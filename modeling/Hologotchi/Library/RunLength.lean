import Mathlib.Data.List.Basic

/-! Runs of equal values, of bounded length. -/
namespace Hologotchi.Library.RunLength

variable {α : Type*}

/-- Go on with a run of `n` copies of `v` until the value changes or the run is full. -/
def runsFrom [DecidableEq α] (cap : ℕ) (v : α) (n : ℕ) : List α → List (α × ℕ)
  | [] => [(v, n)]
  | w :: ws =>
    if w = v ∧ n < cap then runsFrom cap v (n + 1) ws
    else (v, n) :: runsFrom cap w 1 ws

def runs [DecidableEq α] (cap : ℕ) : List α → List (α × ℕ)
  | [] => []
  | v :: vs => runsFrom cap v 1 vs

def expand (rs : List (α × ℕ)) : List α := rs.flatMap fun r => List.replicate r.2 r.1

@[simp] theorem expand_nil : expand ([] : List (α × ℕ)) = [] := rfl

@[simp] theorem expand_cons (r : α × ℕ) (rs : List (α × ℕ)) :
    expand (r :: rs) = List.replicate r.2 r.1 ++ expand rs := List.flatMap_cons

variable [DecidableEq α] {cap n : ℕ} {v : α} {l : List α} {r : α × ℕ}

theorem expand_runsFrom (cap : ℕ) (v : α) (n : ℕ) (l : List α) :
    expand (runsFrom cap v n l) = List.replicate n v ++ l := by
  induction l generalizing v n with
  | nil => simp [runsFrom]
  | cons w ws ih =>
    by_cases h : w = v ∧ n < cap
    · rw [runsFrom, if_pos h, ih, List.replicate_succ', h.1]
      simp
    · rw [runsFrom, if_neg h, expand_cons, ih]
      rfl

/-- The runs of a list spell it out. -/
theorem expand_runs (cap : ℕ) (l : List α) : expand (runs cap l) = l := by
  cases l with
  | nil => rfl
  | cons v vs => exact expand_runsFrom cap v 1 vs

theorem runsFrom_bounds (hcap : 1 ≤ cap) (hn : 1 ≤ n ∧ n ≤ cap) (h : r ∈ runsFrom cap v n l) :
    1 ≤ r.2 ∧ r.2 ≤ cap := by
  induction l generalizing v n with
  | nil =>
    obtain rfl := List.mem_singleton.mp h
    exact hn
  | cons w ws ih =>
    rw [runsFrom] at h
    split at h
    · rename_i hnext
      exact ih ⟨by omega, by omega⟩ h
    · rcases List.mem_cons.mp h with rfl | h
      · exact hn
      · exact ih ⟨by omega, hcap⟩ h

/-- No run is empty or too long. -/
theorem runs_bounds (hcap : 1 ≤ cap) (h : r ∈ runs cap l) : 1 ≤ r.2 ∧ r.2 ≤ cap := by
  cases l with
  | nil => contradiction
  | cons v vs => exact runsFrom_bounds hcap ⟨by omega, hcap⟩ h

/-- A run repeats a value of the list. -/
theorem mem_of_mem_runs (hcap : 1 ≤ cap) (h : r ∈ runs cap l) : r.1 ∈ l := by
  have hpos := (runs_bounds hcap h).1
  have hmem : r.1 ∈ expand (runs cap l) := by
    refine List.mem_flatMap.mpr ⟨r, h, List.mem_replicate.mpr ⟨?_, rfl⟩⟩
    omega
  rwa [expand_runs] at hmem

end Hologotchi.Library.RunLength
