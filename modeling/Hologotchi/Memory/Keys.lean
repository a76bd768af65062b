import Hologotchi.Memory.Reflection

/-! The primary key: no two stored rows share an id. -/
namespace Hologotchi.Memory

open Library Library.Table

variable {e : Engine} {s t : Store} {m : Moment} {row : Row} {now : ℚ} {hit : Row → Bool}
  {memoryId : Option ℕ} {rows : List Row}

/-- Ids are given out in order, each once. -/
def Keyed (s : Store) : Prop := Consistent (·.id ≤ s.lastId) (·.id ≠ ·.id) s.rows

theorem Keyed.update (h : Keyed s) {set : Row → Row} (hset : ∀ r, (set r).id = r.id) :
    Keyed { s with rows := update hit set s.rows } :=
  Consistent.update h (fun r _ hr => (hset r).symm ▸ hr) (fun a _ hab => (hset a).symm ▸ hab)
    (fun _ b hab => (hset b).symm ▸ hab)

theorem Keyed.capture (h : Keyed s) (hcapture : s.capture e now m = .ok (memoryId, t)) :
    Keyed t := by
  rcases capture_ok hcapture with rfl | ⟨row, -, rfl⟩ | ⟨kind, -, -, -, rfl⟩
  · exact h
  · exact h.update fun _ => rfl
  · have hfresh : ∀ r ∈ s.rows, r.id < s.lastId + 1 := fun r hr => Nat.lt_succ_of_le (h.each r hr)
    refine Consistent.insert ⟨fun r hr => (hfresh r hr).le, h.pairwise⟩ (le_refl _) ?_
    exact fun r hr => (hfresh r hr).ne

theorem Keyed.perform (h : Keyed s) (call : Call) : Keyed (perform e s call).1 :=
  perform_keeps (P := Keyed) (fun h => h.update fun _ => rfl) Keyed.capture (fun _ => id)
    (fun _ => Consistent.delete) h

theorem keyed_new (writesEnabled : Bool) : Keyed { writesEnabled := writesEnabled } :=
  consistent_nil

/-- The ids of the stored rows are distinct, whatever was called. -/
theorem keyed_run (e : Engine) (writesEnabled : Bool) (calls : List Call) :
    Keyed (finalState (Memory.perform e) { writesEnabled := writesEnabled } calls) :=
  finalState_invariant (P := Keyed) (fun _ call h => h.perform call) (keyed_new writesEnabled) calls

/-- The id tells the row. -/
theorem eq_of_id_eq {a b : Row} (h : rows.Pairwise (·.id ≠ ·.id)) (ha : a ∈ rows) (hb : b ∈ rows)
    (hid : a.id = b.id) : a = b :=
  List.inj_on_of_nodup_map (List.pairwise_map.mpr h) ha hb hid

theorem nodup_of_distinct_ids (h : rows.Pairwise (·.id ≠ ·.id)) : rows.Nodup :=
  h.imp fun hne heq => hne (congrArg Row.id heq)

end Hologotchi.Memory
