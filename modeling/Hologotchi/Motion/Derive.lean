import Hologotchi.Motion.Walk

/-! When the motion sheet can be derived from a base sheet. -/
namespace Hologotchi.Motion

open Library Library.Layers Library.Fallible Sprite

variable {source : RgbaImage} {cells : SourcePose → Cell} {index cellX cellY : ℕ}

/-- A base sheet of four by four cells. -/
def BaseSheet (source : RgbaImage) : Prop := source.width = 4 * cell ∧ source.height = 4 * cell

theorem readPixel_ok {x y : ℕ} (hx : x < source.width) (hy : y < source.height) :
    readPixel source x y = .ok (source.pixel x y) := by
  have hfits := row_fits hx hy
  rw [readPixel, if_pos]
  rw [source.size_eq, ← Nat.mul_assoc]
  exact hfits

theorem cropFrom_ok {ps : List (ℕ × ℕ)} (out : Cell)
    (hps : ∀ p ∈ ps, cellX + p.1 < source.width ∧ cellY + p.2 < source.height) :
    cropFrom source cellX cellY out ps = .ok (ps.foldl
      (fun out p => out.set p.1 p.2 (source.pixel (cellX + p.1) (cellY + p.2))) out) := by
  induction ps generalizing out with
  | nil => rfl
  | cons p ps ih =>
    obtain ⟨⟨hx, hy⟩, hrest⟩ := List.forall_mem_cons.mp hps
    rw [List.foldl_cons, ← ih _ hrest, cropFrom, readPixel_ok hx hy]
    rfl

/-- The cell of a base sheet at an index. -/
theorem cropCell_ok (h : BaseSheet source) (hindex : index < 16) :
    ∃ c, cropCell source index = .ok c ∧ ∀ x < cell, ∀ y < cell,
      c.get x y = source.pixel ((corner 4 index).1 + x) ((corner 4 index).2 + y) := by
  have hinside : ∀ p ∈ positions cell cell, p.1 < cell ∧ p.2 < cell := fun _ => mem_positions.mp
  refine ⟨_, cropFrom_ok _ ?_, ?_⟩
  · intro p hp
    obtain ⟨hx, hy⟩ := hinside p hp
    rw [h.1, h.2]
    exact corner_fits (by omega) hx hy
  · intro x hx y hy
    have hlook := look_foldl_set (c := Cell.blank)
      (fun x y => source.pixel ((corner 4 index).1 + x) ((corner 4 index).2 + y)) hinside
      (⟨x, hx⟩, ⟨y, hy⟩)
    rw [if_pos (mem_positions.mpr ⟨hx, hy⟩)] at hlook
    exact hlook

theorem derivedCells_isOk_iff (cells : SourcePose → Cell) :
    (derivedCells cells).isOk = true ↔
      ((walkPhase (cells .lookingLeft) false 1).isOk = true ∧
        (walkPhase (cells .lookingLeft) false (-1)).isOk = true) ∧
      (walkPhase (cells .lookingRight) true 1).isOk = true ∧
        (walkPhase (cells .lookingRight) true (-1)).isOk = true := by
  have hshift (c : Cell) (dx dy : ℤ) := exists_of_isOk (shift_isOk c dx dy)
  obtain ⟨up, hup⟩ := hshift (cells .sittingIdle) 0 (-1)
  obtain ⟨down, hdown⟩ := hshift (cells .sittingIdle) 0 1
  obtain ⟨bounceUp, hbounceUp⟩ := hshift (cells .happyBounce) 0 (-1)
  obtain ⟨bounceDown, hbounceDown⟩ := hshift (cells .happyBounce) 0 1
  obtain ⟨paw, hpaw⟩ := hshift (cells .pawLift) 1 (-1)
  obtain ⟨loaf, hloaf⟩ := hshift (cells .relaxedLoaf) 0 1
  obtain ⟨curled, hcurled⟩ := hshift (cells .sleepingCurled) 0 1
  obtain ⟨droop, hdroop⟩ := hshift (cells .sadDroop) (-1) 1
  simp only [derivedCells, hup, hdown, hbounceUp, hbounceDown, hpaw, hloaf, hcurled, hdroop]
  cases walkPhase (cells .lookingLeft) false 1 <;>
    cases walkPhase (cells .lookingLeft) false (-1) <;>
    cases walkPhase (cells .lookingRight) true 1 <;>
    cases walkPhase (cells .lookingRight) true (-1) <;>
    simp [Except.isOk, Except.toBool, bind, Except.bind]

theorem length_derivedCells {derived : List Cell} (h : derivedCells cells = .ok derived) :
    derived.length = 16 := by
  simp only [derivedCells, bind_eq_ok] at h
  obtain ⟨_, -, _, -, _, -, _, -, _, -, _, -, _, -, _, -, _, -, _, -, _, -, _, -, _, -, h⟩ := h
  cases h
  rfl

theorem composeSheet_isOk {derived : List Cell} (h : derived.length = 16) :
    (composeSheet derived 4).isOk = true := by
  rw [composeSheet, dif_pos (by rw [h])]
  rfl

/-- The cells are read in the order of the poses. -/
theorem getD_index (crop : SourcePose → Cell) (pose : SourcePose) :
    (SourcePose.all.map crop).getD pose.index .blank = crop pose := by
  cases pose <;> rfl

/-- Once the cells are cropped, all that can fail is what is made of them. -/
theorem deriveMotionSheet_of_cropped {crop : SourcePose → Cell} (outputPath : String)
    (hcropped : SourcePose.all.mapM (fun pose => cropCell source pose.index) =
      .ok (SourcePose.all.map crop)) :
    (deriveMotionSheet source outputPath none).isOk = true ↔ (derivedCells crop).isOk = true := by
  have hcells : (fun pose : SourcePose => (SourcePose.all.map crop).getD pose.index .blank) =
      crop := funext (getD_index crop)
  rw [deriveMotionSheet, hcropped]
  change (derivedCells (fun pose : SourcePose =>
    (SourcePose.all.map crop).getD pose.index .blank) >>= _).isOk = true ↔ _
  rw [hcells]
  cases hderived : derivedCells crop with
  | error e => exact Iff.rfl
  | ok derived =>
    obtain ⟨image, himage⟩ := exists_of_isOk (composeSheet_isOk (length_derivedCells hderived))
    change (composeSheet derived 4 >>= _).isOk = true ↔ _
    rw [himage]
    exact Iff.rfl

/-- The pixels of the cell that shows the pet from the side. -/
def sideView (source : RgbaImage) (facingRight : Bool) (x y : ℕ) : Rgba :=
  let pose : SourcePose := if facingRight then .lookingRight else .lookingLeft
  source.pixel ((corner 4 pose.index).1 + x) ((corner 4 pose.index).2 + y)

/-- A base sheet can be derived from when the side views can be walked, in both phases. -/
theorem deriveMotionSheet_isOk_iff (h : BaseSheet source) (outputPath : String) :
    (deriveMotionSheet source outputPath none).isOk = true ↔
      ∀ facingRight, Walkable (sideView source facingRight) facingRight 1 ∧
        Walkable (sideView source facingRight) facingRight (-1) := by
  have hindex (pose : SourcePose) : pose.index < 16 := by
    cases pose <;> decide
  choose crop hcrop hlook using fun pose => cropCell_ok h (hindex pose)
  have hcropped : SourcePose.all.mapM (fun pose => cropCell source pose.index) =
      .ok (SourcePose.all.map crop) := mapM_eq_ok fun pose _ => hcrop pose
  have hside (facingRight : Bool) (phase : ℤ) :
      Walkable (crop (if facingRight then .lookingRight else .lookingLeft)).get facingRight phase ↔
        Walkable (sideView source facingRight) facingRight phase :=
    walkable_congr (hlook _)
  rw [deriveMotionSheet_of_cropped outputPath hcropped, derivedCells_isOk_iff, Bool.forall_bool]
  simp only [walkPhase_isOk_iff]
  exact and_congr (and_congr (hside false 1) (hside false (-1)))
    (and_congr (hside true 1) (hside true (-1)))

/-- Without faint pixels nothing runs over. -/
theorem walkable_of_half {pixel : ℕ → ℕ → Rgba} (facingRight : Bool) (phase : ℤ)
    (h : ∀ x < cell, ∀ y < cell, (pixel x y).a = 0 ∨ 128 ≤ (pixel x y).a.toNat) :
    Walkable pixel facingRight phase := by
  intro q
  apply composable_of_half
  intro top htop
  obtain ⟨x, y, hmem, hvisible, -, rfl⟩ := mem_strokes.mp (mem_of_mem_layersAt htop)
  obtain ⟨hx, hy⟩ := box_inside facingRight _ hmem
  exact (h x hx y hy).resolve_left hvisible

/-- A sheet whose side views have no pixel fainter than half can be derived from. -/
theorem deriveMotionSheet_of_half (h : BaseSheet source) (outputPath : String)
    (hfaint : ∀ facingRight, ∀ x < cell, ∀ y < cell,
      (sideView source facingRight x y).a = 0 ∨ 128 ≤ (sideView source facingRight x y).a.toNat) :
    (deriveMotionSheet source outputPath none).isOk = true := by
  rw [deriveMotionSheet_isOk_iff h]
  intro facingRight
  exact ⟨walkable_of_half facingRight 1 (hfaint facingRight),
    walkable_of_half facingRight (-1) (hfaint facingRight)⟩

def blankSheet : RgbaImage where
  width := 4 * cell
  height := 4 * cell
  pixels := List.replicate (4 * cell * (4 * cell) * 4) 0
  size_eq := by rw [List.length_replicate, Nat.mul_assoc]

/-- `_alpha_paste` keeps its channels in the range of a byte unless one of them runs over. So no
shift ever raises an error, a walk phase raises none exactly when nothing runs over where it is
moved, and a sheet can be derived from exactly when that holds for both side views and phases. -/
theorem compositing_in_range_iff (top below : Rgba) (hvisible : top.a ≠ 0) (c : Cell) (dx dy : ℤ)
    (facingRight : Bool) (phase : ℤ) (source : RgbaImage) (hsource : BaseSheet source)
    (outputPath : String) :
    ((blend top below).isOk = true ↔ ¬ Overflows top below) ∧
    (shift c dx dy).isOk = true ∧
    ((walkPhase c facingRight phase).isOk = true ↔ Walkable c.get facingRight phase) ∧
    ((deriveMotionSheet source outputPath none).isOk = true ↔
      ∀ facingRight, Walkable (sideView source facingRight) facingRight 1 ∧
        Walkable (sideView source facingRight) facingRight (-1)) := by
  refine ⟨?_, shift_isOk c dx dy, walkPhase_isOk_iff c facingRight phase,
    deriveMotionSheet_isOk_iff hsource outputPath⟩
  rw [blend_eq hvisible]
  split
  · exact iff_of_false Bool.false_ne_true (not_not_intro ‹_›)
  · exact iff_of_true rfl ‹_›

/-- A white pixel of alpha 50 over one of alpha 3, an empty cell, and an empty sheet. -/
theorem compositing_in_range_iff_white :
    ((blend ⟨255, 255, 255, 50⟩ ⟨255, 255, 255, 3⟩).isOk = true ↔
      ¬ Overflows ⟨255, 255, 255, 50⟩ ⟨255, 255, 255, 3⟩) ∧
    (shift .blank 0 (-1)).isOk = true ∧
    ((walkPhase .blank false 1).isOk = true ↔ Walkable Cell.blank.get false 1) ∧
    ((deriveMotionSheet blankSheet "motion.png" none).isOk = true ↔
      ∀ facingRight, Walkable (sideView blankSheet facingRight) facingRight 1 ∧
        Walkable (sideView blankSheet facingRight) facingRight (-1)) :=
  compositing_in_range_iff ⟨255, 255, 255, 50⟩ ⟨255, 255, 255, 3⟩ (by decide) .blank 0 (-1) false 1
    blankSheet ⟨rfl, rfl⟩ "motion.png"

/-- A base sheet with two white pixels, faint and fainter, in the row where the legs that face
left begin. -/
def ghostSheet : RgbaImage where
  width := 4 * cell
  height := 4 * cell
  pixels :=
    setSheet (setSheet blankSheet.pixels (4 * cell) 415 336 ⟨255, 255, 255, 3⟩) (4 * cell) 418 336
      ⟨255, 255, 255, 50⟩
  size_eq := by
    have hblank : blankSheet.pixels.length = 4 * cell * (4 * cell) * 4 := List.length_replicate
    rw [length_setSheet (length_setSheet hblank (by decide) (by decide)) (by decide) (by decide),
      Nat.mul_assoc]

/-- The side view of that sheet. -/
def ghost (x y : ℕ) : Rgba :=
  if 34 = x ∧ 80 = y then ⟨255, 255, 255, 50⟩
  else if 31 = x ∧ 80 = y then ⟨255, 255, 255, 3⟩
  else ⟨0, 0, 0, 0⟩

theorem sideView_ghostSheet {x y : ℕ} (hx : x < cell) :
    sideView ghostSheet false x y = ghost x y := by
  have hcorner : corner 4 SourcePose.lookingLeft.index = (384, 256) := by decide
  have hcell : cell = 128 := rfl
  have hblank : blankSheet.pixels.length = 4 * cell * (4 * cell) * 4 := List.length_replicate
  have hfaint : (415 < 4 * cell ∧ 418 < 4 * cell) ∧ 336 < 4 * cell := by decide
  have hwidth : 384 + x < 4 * cell := by omega
  have hpixel : sideView ghostSheet false x y =
      pixelAt ghostSheet.pixels (4 * cell) (384 + x) (256 + y) := by
    simp only [sideView, hcorner, Bool.false_eq_true, if_false]
    rfl
  rw [hpixel, ghostSheet, pixelAt_setSheet (length_setSheet hblank hfaint.1.1 hfaint.2)
      hfaint.1.2 hfaint.2 hwidth, pixelAt_setSheet hblank hfaint.1.1 hfaint.2 hwidth, blankSheet,
      pixelAt_replicate, ghost]
  have hx418 : 418 = 384 + x ↔ 34 = x := by omega
  have hx415 : 415 = 384 + x ↔ 31 = x := by omega
  have hy336 : 336 = 256 + y ↔ 80 = y := by omega
  simp only [hx418, hx415, hy336]

/-- The fainter pixel is moved onto the faint one, and white comes out whiter than a byte. -/
theorem not_walkable_ghost : ¬ Walkable ghost false 1 := by
  intro h
  have hplace := h (⟨31, by decide⟩, ⟨80, by decide⟩)
  revert hplace
  decide +kernel

/-- Deriving from the sheet with the two white pixels raises an error. -/
theorem ghostSheet_fails : BaseSheet ghostSheet ∧
    (∀ outputPath, (deriveMotionSheet ghostSheet outputPath none).isOk = false) ∧
    blend ⟨255, 255, 255, 50⟩ ⟨255, 255, 255, 3⟩ =
      .error (.valueError "bytes must be in range(0, 256)") := by
  have hbase : BaseSheet ghostSheet := ⟨rfl, rfl⟩
  refine ⟨hbase, ?_, by decide⟩
  intro outputPath
  rw [← Bool.not_eq_true, deriveMotionSheet_isOk_iff hbase]
  intro h
  have hview : Walkable (sideView ghostSheet false) false 1 ↔ Walkable ghost false 1 :=
    walkable_congr fun x hx y _ => sideView_ghostSheet hx
  obtain ⟨hwalk, -⟩ := h false
  rw [hview] at hwalk
  exact not_walkable_ghost hwalk

end Hologotchi.Motion
