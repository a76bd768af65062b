import Hologotchi.Motion.Composing
import Hologotchi.Png.Writing

/-! The motion sheet from file to file: `derive_motion_sheet` and its `--check`. -/
namespace Hologotchi.Motion

open Library Library.Fallible Sprite
open Png (Zlib)

inductive DeriveError
  | fileNotFound
  | png (error : Png.FileError)
  | sheet (error : SheetError)
  deriving DecidableEq, Repr

theorem length_pixels_of_read {z : Zlib} {path : String} {raw : List UInt8} {image : Png.RgbaImage}
    (h : Png.readRgbaPng z path raw = .ok image) :
    image.pixels.length = image.height * (image.width * 4) := by
  obtain ⟨p, -, rfl, -⟩ := Png.exists_encoded h
  exact p.length_pixels

/-- `read_rgba_png` of the file at a path, if there is one. -/
def readSheet (z : Zlib) (path : String) (file : Option (List UInt8)) :
    Except DeriveError RgbaImage :=
  match file with
  | none => .error .fileNotFound
  | some raw =>
    match h : Png.readRgbaPng z path raw with
    | .error error => .error (.png error)
    | .ok image => .ok ⟨image.width, image.height, image.pixels, length_pixels_of_read h⟩

/-- The sheet that `derive_motion_sheet` writes or checks. -/
def derivedSheet (source : RgbaImage) : Except SheetError RgbaImage := do
  let cropped ← SourcePose.all.mapM fun pose => cropCell source pose.index
  let derived ← derivedCells fun pose => cropped.getD pose.index .blank
  composeSheet derived 4

/-- `derive_motion_sheet` on the two files: the bytes that it writes, if it writes. -/
def deriveMotionSheetFile (z : Zlib) (sourcePath outputPath : String)
    (source output : Option (List UInt8)) (check : Bool) :
    Except DeriveError (Option (List UInt8)) := do
  let image ← (derivedSheet (← readSheet z sourcePath source)).mapError .sheet
  if check then
    let existing ← readSheet z outputPath output
    if existing ≠ image then
      .error (.sheet (.runtimeError s!"{outputPath} is out of date; regenerate motion sheet"))
    else .ok none
  else
    let raw ← (Png.writeRgbaPng z ⟨image.width, image.height, image.pixels⟩).mapError .png
    .ok (some raw)

variable {z : Zlib} {sourcePath outputPath path : String} {source output : Option (List UInt8)}
  {raw : List UInt8} {sheet image : RgbaImage}

theorem deriveMotionSheet_eq (source : RgbaImage) (outputPath : String)
    (check : Option RgbaImage) : deriveMotionSheet source outputPath check =
      (do
        let image ← derivedSheet source
        match check with
        | some existing =>
          if existing ≠ image then
            .error (.runtimeError s!"{outputPath} is out of date; regenerate motion sheet")
          else .ok none
        | none => .ok (some image)) := by
  cases check <;> simp only [deriveMotionSheet, derivedSheet, bind_assoc]

theorem readSheet_eq_ok_iff : readSheet z path (some raw) = .ok image ↔
    Png.readRgbaPng z path raw = .ok ⟨image.width, image.height, image.pixels⟩ := by
  unfold readSheet
  dsimp only
  constructor
  · intro h
    split at h
    · contradiction
    · rename_i found hread
      cases h
      exact hread
  · intro hread
    split
    · rename_i hother
      rw [hread] at hother
      contradiction
    · rename_i found hother
      rw [hread] at hother
      cases hother
      rfl

/-- The check passes on exactly the files that hold the sheet. -/
theorem check_ok_iff (hsheet : readSheet z sourcePath source = .ok sheet)
    (hderived : derivedSheet sheet = .ok image) :
    deriveMotionSheetFile z sourcePath outputPath source output true = .ok none ↔
      readSheet z outputPath output = .ok image := by
  rw [deriveMotionSheetFile, hsheet]
  change ((derivedSheet sheet).mapError DeriveError.sheet >>= _) = _ ↔ _
  rw [hderived]
  change (readSheet z outputPath output >>= _) = _ ↔ _
  cases readSheet z outputPath output with
  | error e => exact iff_of_false nofun nofun
  | ok existing =>
    change (if existing ≠ image then _ else Except.ok none) = _ ↔ _
    by_cases hsame : existing = image
    · rw [if_neg (not_not_intro hsame), hsame]
      exact iff_of_true rfl rfl
    · rw [if_pos hsame]
      refine iff_of_false nofun ?_
      exact fun h => hsame (Except.ok.inj h)

/-- What has been written is the sheet that was derived. -/
theorem exists_of_regenerated
    (h : deriveMotionSheetFile z sourcePath outputPath source output false = .ok (some raw)) :
    ∃ sheet image, readSheet z sourcePath source = .ok sheet ∧ derivedSheet sheet = .ok image ∧
      Png.writeRgbaPng z ⟨image.width, image.height, image.pixels⟩ = .ok raw := by
  rw [deriveMotionSheetFile] at h
  obtain ⟨sheet, hsheet, h⟩ := bind_eq_ok.mp h
  obtain ⟨image, hderived, h⟩ := bind_eq_ok.mp h
  rw [if_neg Bool.false_ne_true] at h
  obtain ⟨written, hwrite, h⟩ := bind_eq_ok.mp h
  cases h
  exact ⟨sheet, image, hsheet, mapError_eq_ok_iff.mp hderived, mapError_eq_ok_iff.mp hwrite⟩

/-- The cells of the sheet that was derived. -/
theorem exists_of_derivedSheet (h : derivedSheet sheet = .ok image) :
    ∃ (crop : SourcePose → Cell) (derived : List Cell) (hlength : derived.length = 16),
      (∀ pose, cropCell sheet pose.index = .ok (crop pose)) ∧ derivedCells crop = .ok derived ∧
      BaseSheet image ∧
      ∀ i : Fin 16, cropCell image i = .ok (derived.get (i.cast hlength.symm)) := by
  rw [derivedSheet] at h
  obtain ⟨cropped, hcropped, h⟩ := bind_eq_ok.mp h
  obtain ⟨derived, hderived, himage⟩ := bind_eq_ok.mp h
  have hlength := length_derivedCells hderived
  refine ⟨_, derived, hlength, fun pose => ?_, hderived, (composeSheet_four hlength himage).1,
    cropCell_composeSheet hlength himage⟩
  have hmem : pose ∈ SourcePose.all := by cases pose <;> decide
  have hindex : pose.index < SourcePose.all.length := List.idxOf_lt_length_of_mem hmem
  have hcrop := getD_of_mapM hcropped hindex .blank
  rwa [show SourcePose.all[pose.index] = pose from List.getElem_idxOf hindex] at hcrop

/-- A sheet that was regenerated holds the cells that were derived, and the check passes on exactly
the files that hold the same sheet. Where writing it was cut off the check passes if at most the
last chunk is missing. -/
theorem regenerated_sheet (z : Zlib) (hz : z.Lossless) (sourcePath outputPath : String)
    (source output : Option (List UInt8)) (raw : List UInt8)
    (h : deriveMotionSheetFile z sourcePath outputPath source output false = .ok (some raw)) :
    ∃ (sheet image : RgbaImage) (crop : SourcePose → Cell) (derived : List Cell)
      (hlength : derived.length = 16),
      (readSheet z sourcePath source = .ok sheet ∧
        (∀ pose, cropCell sheet pose.index = .ok (crop pose)) ∧
        derivedCells crop = .ok derived) ∧
      (readSheet z outputPath (some raw) = .ok image ∧
        ∀ i : Fin 16, cropCell image i = .ok (derived.get (i.cast hlength.symm))) ∧
      (∀ other, deriveMotionSheetFile z sourcePath outputPath source other true = .ok none ↔
        readSheet z outputPath other = .ok image) ∧
      ∀ cut, cut <+: raw →
        (deriveMotionSheetFile z sourcePath outputPath source (some cut) true = .ok none ↔
          cut = raw ∨ cut ++ Png.lastChunk.bytes z = raw) := by
  obtain ⟨sheet, image, hsheet, hderived, hwrite⟩ := exists_of_regenerated h
  obtain ⟨crop, derived, hlength, hcrop, hcells, -, himage⟩ := exists_of_derivedSheet hderived
  have hread : readSheet z outputPath (some raw) = .ok image := by
    have hwhole := Png.readRgbaPng_written hz outputPath hwrite []
    rw [List.append_nil] at hwhole
    exact readSheet_eq_ok_iff.mpr hwhole
  refine ⟨sheet, image, crop, derived, hlength, ⟨hsheet, hcrop, hcells⟩, ⟨hread, himage⟩,
    fun other => check_ok_iff hsheet hderived, fun cut hcut => ?_⟩
  rw [check_ok_iff hsheet hderived, readSheet_eq_ok_iff,
    Png.readRgbaPng_cut_iff hz outputPath hwrite hcut, and_iff_right rfl]

/-- A sheet that is empty but for some pixels. -/
def dots (ps : List ((ℕ × ℕ) × Rgba)) : List UInt8 :=
  ps.foldl (fun pixels p => setSheet pixels (4 * cell) p.1.1 p.1.2 p.2) blankSheet.pixels

/-- Such a sheet has its size, and no pixel that is fainter than half. -/
theorem dots_half {ps : List ((ℕ × ℕ) × Rgba)}
    (hinside : ∀ p ∈ ps, p.1.1 < 4 * cell ∧ p.1.2 < 4 * cell)
    (hstrong : ∀ p ∈ ps, 128 ≤ p.2.a.toNat) :
    (dots ps).length = 4 * cell * (4 * cell) * 4 ∧ ∀ x < 4 * cell, ∀ y,
      (pixelAt (dots ps) (4 * cell) x y).a = 0 ∨
        128 ≤ (pixelAt (dots ps) (4 * cell) x y).a.toNat := by
  induction ps using List.reverseRecOn with
  | nil =>
    refine ⟨List.length_replicate, fun x _ y => .inl ?_⟩
    exact congrArg Rgba.a (pixelAt_replicate _ _ _ _)
  | append_singleton ps p ih =>
    obtain ⟨hbefore, hlast⟩ := List.forall_mem_append.mp hinside
    obtain ⟨hbefore', hlast'⟩ := List.forall_mem_append.mp hstrong
    obtain ⟨hlength, hhalf⟩ := ih hbefore hbefore'
    obtain ⟨hx, hy⟩ := hlast p (List.mem_singleton_self p)
    have hdots : dots (ps ++ [p]) = setSheet (dots ps) (4 * cell) p.1.1 p.1.2 p.2 := by
      rw [dots, List.foldl_append]
      rfl
    rw [hdots]
    refine ⟨length_setSheet hlength hx hy, fun x' hx' y' => ?_⟩
    rw [pixelAt_setSheet hlength hx hy hx']
    split
    · exact .inr (hlast' p (List.mem_singleton_self p))
    · exact hhalf x' hx' y'

/-- A pixel of the cell that sits, and two where the legs of the one that looks left begin. -/
def dotSheet : RgbaImage where
  width := 4 * cell
  height := 4 * cell
  pixels := dots [((64, 64), ⟨255, 255, 255, 255⟩), ((415, 336), ⟨255, 255, 255, 255⟩),
    ((418, 336), ⟨255, 0, 0, 255⟩)]
  size_eq := by rw [(dots_half (by decide) (by decide)).1, Nat.mul_assoc]

/-- The bytes of `zlib.compress` for the rows of that sheet. -/
def dotStream : List UInt8 :=
  [0x78, 0xda, 0xed, 0xd0, 0xa1, 0x11, 0x00, 0x00, 0x08, 0x03, 0x31, 0xf6, 0x5f, 0x1a, 0x38, 0x04,
    0x13, 0x20, 0x10, 0xc9, 0xbd, 0xa8, 0x6e, 0x04] ++ List.replicate 127 0 ++
  [0x27, 0xb2, 0x79, 0x01] ++ List.replicate 540 0 ++ [0xe0, 0xb7, 0x6c, 0xbb, 0x27] ++
  List.replicate 347 0 ++ [0xe0, 0x40, 0x01, 0x5a, 0x1d, 0x09, 0xf7]

/-- The pixels of the sheet that is derived from it: those of the four cells that sit, and of the
two that walk to the left. -/
def movedDots : List UInt8 :=
  dots [((64, 63), ⟨255, 255, 255, 255⟩), ((192, 65), ⟨255, 255, 255, 255⟩),
    ((320, 64), ⟨255, 255, 255, 255⟩), ((448, 63), ⟨255, 255, 255, 255⟩),
    ((31, 464), ⟨255, 0, 0, 255⟩), ((159, 463), ⟨255, 255, 255, 255⟩),
    ((165, 463), ⟨255, 0, 0, 255⟩)]

def movedStream : List UInt8 :=
  [0x78, 0xda, 0xed, 0xd5, 0x21, 0x0e, 0x00, 0x30, 0x08, 0x03, 0x40, 0xfe, 0xff, 0x69, 0x46, 0xa6,
    0xa7, 0x96, 0x20, 0x20, 0x77, 0x41, 0x21, 0x2b, 0xda, 0x08] ++ List.replicate 125 0 ++
  [0x3a, 0x64, 0x91, 0x02, 0x80, 0xfe, 0x07, 0xc0, 0x00, 0x00, 0x60] ++ List.replicate 791 0 ++
  [0x7e, 0x64, 0x79, 0xfe, 0xef, 0x01, 0xb0, 0x77, 0x00, 0x14, 0x3d] ++ List.replicate 94 0 ++
  [0x30, 0xd7, 0x01, 0xec, 0x54, 0x17, 0xe9]

/-- `zlib` as it is on the rows of both sheets. -/
def dotZlib : Zlib :=
  (Png.zlibOn (Png.rowsOf ⟨dotSheet.width, dotSheet.height, dotSheet.pixels⟩) dotStream).knowing
    (Png.rowsOf ⟨4 * cell, 4 * cell, movedDots⟩) movedStream

theorem lossless_dotZlib : dotZlib.Lossless := by
  refine (Png.lossless_zlibOn _ _).knowing (by decide) (fun other => ?_) _
  simp only [Png.zlibOn]
  split
  · decide +kernel
  · exact fun h => absurd (List.cons.inj h).1 (by decide)

theorem exists_written (h : BaseSheet image) : ∃ raw,
    Png.writeRgbaPng dotZlib ⟨image.width, image.height, image.pixels⟩ = .ok raw := by
  have hside : 4 * cell = 512 := rfl
  let p : Png.Picture := ⟨⟨image.width, image.height, image.pixels⟩, image.size_eq⟩
  have hwidth : p.width = 512 := h.1
  have hheight : p.height = 512 := h.2
  have hrows : (Png.rowsOf p.toRgbaImage).length = 512 * (512 * 4 + 1) := by
    rw [Png.rowsOf_eq_filtered, Png.Picture.length_filtered, Png.Picture.stride, hwidth, hheight]
  apply Png.exists_writeRgbaPng (p := p)
  · rw [hwidth, hheight]
    decide
  · simp only [dotZlib, Png.Zlib.knowing, Png.zlibOn]
    split_ifs
    · decide +kernel
    · decide +kernel
    · rw [List.length_cons, hrows]
      decide

/-- From the sheet with the three pixels a sheet is derived. -/
theorem exists_regenerated_dots : ∃ source raw,
    readSheet dotZlib "base.png" (some source) = .ok dotSheet ∧
    deriveMotionSheetFile dotZlib "base.png" "motion.png" (some source) none false =
      .ok (some raw) := by
  obtain ⟨source, hsource⟩ := exists_written (show BaseSheet dotSheet from ⟨rfl, rfl⟩)
  have hread : readSheet dotZlib "base.png" (some source) = .ok dotSheet := by
    have hwhole := Png.readRgbaPng_written lossless_dotZlib "base.png" hsource []
    rw [List.append_nil] at hwhole
    exact readSheet_eq_ok_iff.mpr hwhole
  have hderive : (deriveMotionSheet dotSheet "motion.png" none).isOk = true := by
    apply deriveMotionSheet_of_half ⟨rfl, rfl⟩
    intro facingRight x hx y _
    refine (dots_half (by decide) (by decide)).2 _ ?_ _
    have hcell : cell = 128 := rfl
    cases facingRight
    · have hcorner : (corner 4 SourcePose.lookingLeft.index).1 = 384 := by decide
      change (corner 4 SourcePose.lookingLeft.index).1 + x < _
      omega
    · have hcorner : (corner 4 SourcePose.lookingRight.index).1 = 0 := by decide
      change (corner 4 SourcePose.lookingRight.index).1 + x < _
      omega
  rw [deriveMotionSheet_eq] at hderive
  obtain ⟨written, hderive⟩ := exists_of_isOk hderive
  obtain ⟨image, himage, -⟩ := bind_eq_ok.mp hderive
  obtain ⟨-, -, -, -, -, hbase, -⟩ := exists_of_derivedSheet himage
  obtain ⟨raw, hraw⟩ := exists_written hbase
  refine ⟨source, raw, hread, ?_⟩
  rw [deriveMotionSheetFile]
  refine bind_eq_ok.mpr ⟨_, hread, bind_eq_ok.mpr ⟨image, ?_, ?_⟩⟩
  · rw [himage]
    rfl
  · rw [if_neg Bool.false_ne_true]
    refine bind_eq_ok.mpr ⟨raw, ?_, rfl⟩
    rw [hraw]
    rfl

theorem regenerated_sheet_dots : ∃ source raw,
    readSheet dotZlib "base.png" (some source) = .ok dotSheet ∧
    deriveMotionSheetFile dotZlib "base.png" "motion.png" (some source) none false =
      .ok (some raw) ∧
    ∃ (sheet image : RgbaImage) (crop : SourcePose → Cell) (derived : List Cell)
      (hlength : derived.length = 16),
      (readSheet dotZlib "base.png" (some source) = .ok sheet ∧
        (∀ pose, cropCell sheet pose.index = .ok (crop pose)) ∧
        derivedCells crop = .ok derived) ∧
      (readSheet dotZlib "motion.png" (some raw) = .ok image ∧
        ∀ i : Fin 16, cropCell image i = .ok (derived.get (i.cast hlength.symm))) ∧
      (∀ other, deriveMotionSheetFile dotZlib "base.png" "motion.png" (some source) other true =
          .ok none ↔ readSheet dotZlib "motion.png" other = .ok image) ∧
      ∀ cut, cut <+: raw →
        (deriveMotionSheetFile dotZlib "base.png" "motion.png" (some source) (some cut) true =
          .ok none ↔ cut = raw ∨ cut ++ Png.lastChunk.bytes dotZlib = raw) := by
  obtain ⟨source, raw, hread, hfile⟩ := exists_regenerated_dots
  exact ⟨source, raw, hread, hfile, regenerated_sheet dotZlib lossless_dotZlib "base.png"
    "motion.png" (some source) none raw hfile⟩

end Hologotchi.Motion
