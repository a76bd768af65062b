import Mathlib.Data.List.TakeDrop

/-! Items laid out one after another, each over a span of its own length, and the item a
position falls on. -/
namespace Hologotchi.Library.Spans

variable {α : Type*} {len : α → ℕ} {xs : List α} {a : α} {i j x : ℕ}

/-- The length of the whole layout. -/
def total (len : α → ℕ) : List α → ℕ
  | [] => 0
  | a :: xs => len a + total len xs

/-- Where the span of the item at `i` begins. -/
def start (len : α → ℕ) (xs : List α) (i : ℕ) : ℕ := total len (xs.take i)

/-- The position `x` lies on the span of the item at `i`. -/
def Covers (len : α → ℕ) (xs : List α) (x : ℕ) (i : Fin xs.length) : Prop :=
  start len xs i ≤ x ∧ x < start len xs i + len xs[i]

/-- The item a position falls on, found by taking off one length after the other. -/
def locate (len : α → ℕ) : ℕ → List α → Option α
  | _, [] => none
  | x, a :: xs => if x < len a then some a else locate len (x - len a) xs

@[simp] theorem total_nil : total len [] = 0 := rfl

@[simp] theorem total_cons : total len (a :: xs) = len a + total len xs := rfl

theorem total_append (xs ys : List α) : total len (xs ++ ys) = total len xs + total len ys := by
  induction xs with
  | nil => simp
  | cons a xs ih =>
    simp only [List.cons_append, total_cons, ih]
    omega

theorem total_replicate (n : ℕ) (a : α) : total len (List.replicate n a) = n * len a := by
  induction n with
  | zero => simp
  | succ n ih => rw [List.replicate_succ, total_cons, ih, Nat.succ_mul, Nat.add_comm]

@[simp] theorem start_zero : start len xs 0 = 0 := by simp [start]

@[simp] theorem start_cons_succ : start len (a :: xs) (i + 1) = len a + start len xs i := by
  simp [start]

theorem start_succ (i : Fin xs.length) : start len xs (i + 1) = start len xs i + len xs[i] := by
  have htake : xs.take (i + 1) = xs.take i ++ [xs[i]] := List.take_succ_eq_append_getElem i.isLt
  rw [start, htake, total_append, total_cons, total_nil]
  rfl

theorem start_mono (h : i ≤ j) : start len xs i ≤ start len xs j := by
  obtain ⟨rest, hrest⟩ := List.take_prefix_take_left (l := xs) h
  have hlen := congrArg (total len) hrest
  rw [total_append] at hlen
  change start len xs i + total len rest = start len xs j at hlen
  omega

/-- A span ends where the layout does, or before. -/
theorem lt_total_of_covers {i : Fin xs.length} (h : Covers len xs x i) : x < total len xs := by
  have hmono : start len xs (i + 1) ≤ start len xs xs.length := start_mono i.isLt
  have hend : start len xs xs.length = total len xs := by rw [start, List.take_length]
  have hsucc : start len xs (i + 1) = start len xs i + len xs[i] := start_succ i
  obtain ⟨-, hhigh⟩ := h
  omega

theorem total_pos (hxs : xs ≠ []) (hpos : ∀ a ∈ xs, 0 < len a) : 0 < total len xs := by
  obtain ⟨a, rest, rfl⟩ := List.exists_cons_of_ne_nil hxs
  have ha := hpos a (by simp)
  rw [total_cons]
  omega

/-- The spans do not overlap. -/
theorem covers_unique {i j : Fin xs.length} (hi : Covers len xs x i) (hj : Covers len xs x j) :
    i = j := by
  have hsi : start len xs (i + 1) = start len xs i + len xs[i] := start_succ i
  have hsj : start len xs (j + 1) = start len xs j + len xs[j] := start_succ j
  obtain ⟨hi, hi'⟩ := hi
  obtain ⟨hj, hj'⟩ := hj
  rcases Nat.lt_trichotomy i j with h | h | h
  · have hmono : start len xs (i + 1) ≤ start len xs j := start_mono (Nat.succ_le_of_lt h)
    omega
  · exact Fin.ext h
  · have hmono : start len xs (j + 1) ≤ start len xs i := start_mono (Nat.succ_le_of_lt h)
    omega

/-- A position within the layout falls on an item whose span it lies on. -/
theorem exists_covers (h : x < total len xs) :
    ∃ i : Fin xs.length, Covers len xs x i ∧ locate len x xs = some xs[i] := by
  induction xs generalizing x with
  | nil => simp at h
  | cons a xs ih =>
    by_cases ha : x < len a
    · refine ⟨⟨0, by simp⟩, ?_, ?_⟩
      · simpa [Covers] using ha
      · simp [locate, ha]
    · rw [total_cons] at h
      obtain ⟨i, ⟨hlow, hhigh⟩, hlocate⟩ := ih (show x - len a < total len xs by omega)
      refine ⟨i.succ, ⟨?_, ?_⟩, ?_⟩
      · simp only [Fin.val_succ, start_cons_succ]
        omega
      · simp only [Fin.val_succ, start_cons_succ, Fin.getElem_fin,
          List.getElem_cons_succ] at hhigh ⊢
        omega
      · simpa [locate, ha] using hlocate

/-- The walk finds the one item whose span the position lies on. -/
theorem locate_of_covers {i : Fin xs.length} (hi : Covers len xs x i) :
    locate len x xs = some xs[i] := by
  obtain ⟨j, hj, hlocate⟩ := exists_covers (lt_total_of_covers hi)
  rw [covers_unique hi hj]
  exact hlocate

end Hologotchi.Library.Spans
