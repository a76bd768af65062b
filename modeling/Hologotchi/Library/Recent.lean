import Mathlib.Data.List.Basic
import Mathlib.Data.List.Induction

/-! The most recent entry that there is in a log with gaps, and its age. -/
namespace Hologotchi.Library.Recent

variable {α : Type*}

/-- One entry later. -/
def later (last : Option (α × ℕ)) : Option α → Option (α × ℕ)
  | some x => some (x, 0)
  | none => last.map fun r => (r.1, r.2 + 1)

/-- The last entry of a log, with the number of gaps after it. -/
def recent (log : List (Option α)) : Option (α × ℕ) := log.foldl later none

variable {log : List (Option α)} {x : α} {i k n : ℕ}

@[simp] theorem recent_concat (log : List (Option α)) (entry : Option α) :
    recent (log ++ [entry]) = later (recent log) entry := by
  rw [recent, recent, List.foldl_append]
  rfl

end Hologotchi.Library.Recent
