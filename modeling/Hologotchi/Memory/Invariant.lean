import Hologotchi.Memory.Reflection
import Mathlib.Tactic.Linarith

/-! What holds of the stored memories after any calls. -/
namespace Hologotchi.Memory

open Python Library Library.Table

/-- A row as the store may keep it. -/
structure Row.Valid (row : Row) : Prop where
  importance_ge : importanceThreshold ≤ row.importance
  importance_le : row.importance ≤ 100
  valence_ge : -100 ≤ row.valence
  valence_le : row.valence ≤ 100
  intensity_nonneg : 0 ≤ row.intensity
  intensity_le : row.intensity ≤ 100
  recallCount_nonneg : 0 ≤ row.recallCount
  summary_ne_nil : row.summary ≠ []
  summary_length : row.summary.length ≤ maxSummaryLen
  packed : Packed row.tags
  tags_length : (decodeTags row.tags).length ≤ maxTags
  tags_nodup : (decodeTags row.tags).Nodup
  tags_normalized : ∀ tag ∈ decodeTags row.tags, Normalized tag

/-- The same moment is not stored twice within the window. -/
def Spaced (a b : Row) : Prop :=
  a.source = b.source → a.summary = b.summary → dedupeWindowSeconds < |a.createdAt - b.createdAt|

/-- Every row is valid, and every two are spaced. -/
def Sound (s : Store) : Prop := Consistent Row.Valid Spaced s.rows

variable {e : Engine} {s t : Store} {m : Moment} {row : Row} {kind : Kind} {now : ℚ}
  {memoryId : Option ℕ}

theorem clampSigned_bounds (value : ℤ) : -100 ≤ clampSigned value ∧ clampSigned value ≤ 100 := by
  unfold clampSigned
  omega

theorem clampUnsigned_bounds (value : ℤ) : 0 ≤ clampUnsigned value ∧ clampUnsigned value ≤ 100 := by
  unfold clampUnsigned
  omega

theorem importanceOf_le : s.importanceOf m ≤ 100 := min_le_left _ _

/-- A moment that is salient enough becomes a valid row. -/
theorem newRow_valid (hsummary : cleanSummary m.summary ≠ [])
    (himportance : importanceThreshold ≤ s.importanceOf m) : (s.newRow m kind now).Valid := by
  have hpacked : Packed (encodeTags m.tags) := ⟨m.tags, rfl⟩
  exact {
    importance_ge := himportance
    importance_le := importanceOf_le
    valence_ge := (clampSigned_bounds m.valence).1
    valence_le := (clampSigned_bounds m.valence).2
    intensity_nonneg := (clampUnsigned_bounds m.intensity).1
    intensity_le := (clampUnsigned_bounds m.intensity).2
    recallCount_nonneg := le_refl 0
    summary_ne_nil := hsummary
    summary_length := length_cleanSummary_le m.summary
    packed := hpacked
    tags_length := hpacked.length_le
    tags_nodup := hpacked.nodup
    tags_normalized := hpacked.normalized }

/-- A recall that starts from a valid importance. -/
theorem Row.Valid.recalled {old : ℚ} (h : row.Valid) (hold : importanceThreshold ≤ old) :
    (row.recalled (min 100 (old + recallBump)) now).Valid := by
  have hbump : importanceThreshold ≤ min 100 (old + recallBump) := by
    have hpos : (0 : ℚ) ≤ recallBump := by norm_num [recallBump]
    exact le_min (by norm_num [importanceThreshold]) (le_add_of_le_of_nonneg hold hpos)
  have hcount : 0 ≤ row.recallCount + 1 := by
    have hnonneg := h.recallCount_nonneg
    omega
  exact { h with
    importance_ge := hbump
    importance_le := min_le_left _ _
    recallCount_nonneg := hcount }

theorem Row.Valid.raiseIntensity (h : row.Valid) (value : ℤ) :
    (row.raiseIntensity (clampUnsigned value)).Valid := by
  obtain ⟨hlow, hhigh⟩ := clampUnsigned_bounds value
  exact { h with
    intensity_nonneg := le_max_of_le_left h.intensity_nonneg
    intensity_le := max_le h.intensity_le hhigh }

/-- A row that is no duplicate of a moment is spaced from the row of that moment. -/
theorem spaced_newRow (h : isDuplicate m.source (cleanSummary m.summary) now row = false) :
    Spaced row (s.newRow m kind now) := by
  intro hsource hsummary
  simp only [isDuplicate, decide_eq_false_iff_not] at h
  have hold : row.createdAt < now - dedupeWindowSeconds := by
    by_contra hrecent
    exact h ⟨hsource, hsummary, not_lt.mp hrecent⟩
  have habs := neg_abs_le (row.createdAt - now)
  change dedupeWindowSeconds < |row.createdAt - now|
  linarith

theorem Sound.bumpExisting (h : Sound s) (hrow : row ∈ s.rows) (value : ℤ) :
    Sound (s.bumpExisting row (clampUnsigned value) now) := by
  have hold := (h.each row hrow).importance_ge
  exact Consistent.update h (fun _ _ hr => (hr.recalled hold).raiseIntensity value)
    (fun _ _ hab => hab) (fun _ _ hab => hab)

theorem Sound.markRecalled (h : Sound s) (ids : List ℕ) : Sound (s.markRecalled ids now) :=
  Consistent.update h (fun _ _ hr => hr.recalled hr.importance_ge) (fun _ _ hab => hab)
    (fun _ _ hab => hab)

theorem Sound.insert (h : Sound s) (hsummary : cleanSummary m.summary ≠ [])
    (himportance : importanceThreshold ≤ s.importanceOf m)
    (hdup : ∀ row ∈ s.rows, isDuplicate m.source (cleanSummary m.summary) now row = false) :
    Sound (s.insert (s.newRow m kind now)) :=
  Consistent.insert h (newRow_valid hsummary himportance) fun row hrow =>
    spaced_newRow (hdup row hrow)

theorem Sound.capture (h : Sound s) (hcapture : s.capture e now m = .ok (memoryId, t)) :
    Sound t := by
  rcases capture_ok hcapture with rfl | ⟨row, hrow, rfl⟩ |
    ⟨kind, hsummary, himportance, hdup, rfl⟩
  · exact h
  · exact h.bumpExisting hrow m.intensity
  · exact h.insert hsummary himportance hdup

theorem Sound.perform (h : Sound s) (call : Call) : Sound (perform e s call).1 :=
  perform_keeps (P := Sound) (fun h => h.markRecalled _) Sound.capture (fun _ => id)
    (fun _ => Consistent.delete) h

/-- Whatever the calls, their arguments and the clock, every stored row is valid and every two
are spaced. -/
theorem memories_sound (e : Engine) (writesEnabled : Bool) (calls : List Call) :
    Sound (finalState (perform e) { writesEnabled := writesEnabled } calls) := by
  have hopened : Sound { writesEnabled := writesEnabled } := consistent_nil
  exact finalState_invariant (P := Sound) (fun _ call h => h.perform call) hopened calls

end Hologotchi.Memory
