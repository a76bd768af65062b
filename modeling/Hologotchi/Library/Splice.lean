import Mathlib.Data.List.TakeDrop

/-! Overwriting a stretch of a buffer. -/
namespace Hologotchi.Library

variable {β : Type*} {buffer items : List β} {offset i : ℕ}

/-- The buffer with the items in place of as many of its own from `offset` on. -/
def splice (buffer : List β) (offset : ℕ) (items : List β) : List β :=
  buffer.take offset ++ items ++ buffer.drop (offset + items.length)

theorem length_splice (h : offset + items.length ≤ buffer.length) :
    (splice buffer offset items).length = buffer.length := by
  simp only [splice, List.length_append, List.length_take, List.length_drop]
  omega

theorem getElem?_splice_inside (h : offset ≤ buffer.length) (hi : i < items.length) :
    (splice buffer offset items)[offset + i]? = items[i]? := by
  have htake : (buffer.take offset).length = offset := List.length_take_of_le h
  rw [splice, List.append_assoc, List.getElem?_append_right (by omega), htake,
    Nat.add_sub_cancel_left, List.getElem?_append_left hi]

theorem getElem?_splice_before (h : offset ≤ buffer.length) (hi : i < offset) :
    (splice buffer offset items)[i]? = buffer[i]? := by
  have htake : (buffer.take offset).length = offset := List.length_take_of_le h
  rw [splice, List.append_assoc, List.getElem?_append_left (by omega), List.getElem?_take_of_lt hi]

theorem getElem?_splice_after (h : offset ≤ buffer.length) (hi : offset + items.length ≤ i) :
    (splice buffer offset items)[i]? = buffer[i]? := by
  have htake : (buffer.take offset ++ items).length = offset + items.length := by
    rw [List.length_append, List.length_take_of_le h]
  rw [splice, List.getElem?_append_right (by omega), htake, List.getElem?_drop]
  congr 1
  omega

end Hologotchi.Library
