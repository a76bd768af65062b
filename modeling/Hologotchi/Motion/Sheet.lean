import Hologotchi.Library.Splice
import Hologotchi.Sprite.Crop

/-! The motion sheet derived from the base sheet (`host/tools/derive_shiro_motion_sheet.py`). -/
namespace Hologotchi.Motion

open Library Sprite

inductive SheetError
  | valueError (message : String)
  | runtimeError (message : String)
  deriving DecidableEq, Repr

/-- The side of a cell. -/
def cell : ℕ := 128

inductive SourcePose
  | sittingIdle
  | blink
  | happyBounce
  | tailWagLeft
  | tailWagRight
  | sleepingCurled
  | alertEarsUp
  | confusedHeadTilt
  | sadDroop
  | excitedJump
  | listening
  | lookingLeft
  | lookingRight
  | pawLift
  | surprised
  | relaxedLoaf
  deriving DecidableEq, Repr

/-- `SOURCE_POSES`. -/
def SourcePose.all : List SourcePose :=
  [.sittingIdle, .blink, .happyBounce, .tailWagLeft, .tailWagRight, .sleepingCurled, .alertEarsUp,
    .confusedHeadTilt, .sadDroop, .excitedJump, .listening, .lookingLeft, .lookingRight, .pawLift,
    .surprised, .relaxedLoaf]

/-- The position of a pose in `SOURCE_POSES`. -/
def SourcePose.index (pose : SourcePose) : ℕ := SourcePose.all.idxOf pose

/-- The four bytes of a pixel, in rows of `width` pixels. -/
def pixelAt (pixels : List UInt8) (width x y : ℕ) : Rgba :=
  let offset := (y * width + x) * 4
  ⟨pixels.getD offset 0, pixels.getD (offset + 1) 0, pixels.getD (offset + 2) 0,
    pixels.getD (offset + 3) 0⟩

def setSheet (pixels : List UInt8) (width x y : ℕ) (pixel : Rgba) : List UInt8 :=
  splice pixels ((y * width + x) * 4) [pixel.r, pixel.g, pixel.b, pixel.a]

theorem row_fits {width height x y : ℕ} (hx : x < width) (hy : y < height) :
    (y * width + x) * 4 + 4 ≤ height * width * 4 := by
  have hrow : (y + 1) * width ≤ height * width := Nat.mul_le_mul_right width hy
  rw [Nat.succ_mul] at hrow
  omega

theorem length_setSheet {pixels : List UInt8} {width height x y : ℕ} {pixel : Rgba}
    (hsize : pixels.length = height * width * 4) (hx : x < width) (hy : y < height) :
    (setSheet pixels width x y pixel).length = height * width * 4 := by
  have hfits := row_fits hx hy
  rw [← hsize] at hfits ⊢
  exact length_splice hfits

/-- The bytes of a cell, immutable or not. -/
structure Cell where
  bytes : List UInt8
  size_eq : bytes.length = cell * cell * 4

/-- `bytearray(CELL * CELL * 4)`. -/
def Cell.blank : Cell := ⟨List.replicate (cell * cell * 4) 0, List.length_replicate⟩

def Cell.get (c : Cell) (x y : ℕ) : Rgba := pixelAt c.bytes cell x y

/-- `0 <= x < CELL and 0 <= y < CELL`. -/
def InCell (x y : ℤ) : Prop := (0 ≤ x ∧ x < cell) ∧ 0 ≤ y ∧ y < cell

instance (x y : ℤ) : Decidable (InCell x y) := inferInstanceAs (Decidable (_ ∧ _))

theorem InCell.toNat_lt {x y : ℤ} (h : InCell x y) : x.toNat < cell ∧ y.toNat < cell := by
  unfold InCell at h
  omega

def Cell.set (c : Cell) (x y : ℤ) (pixel : Rgba) : Cell :=
  if h : InCell x y then
    { bytes := setSheet c.bytes cell x.toNat y.toNat pixel
      size_eq := length_setSheet c.size_eq h.toNat_lt.1 h.toNat_lt.2 }
  else c

/-- `bytes((r, g, b, a))`. -/
def toBytes (r g b a : ℕ) : Except SheetError Rgba :=
  if r < 256 ∧ g < 256 ∧ b < 256 ∧ a < 256 then
    .ok ⟨UInt8.ofNat r, UInt8.ofNat g, UInt8.ofNat b, UInt8.ofNat a⟩
  else .error (.valueError "bytes must be in range(0, 256)")

/-- What `_alpha_paste` puts in the place of `dst`. -/
def blend (pixel dst : Rgba) : Except SheetError Rgba :=
  if pixel.a = 255 then .ok pixel
  else
    let inv := 255 - pixel.a.toNat
    let outA := pixel.a.toNat + (dst.a.toNat * inv + 127) / 255
    if outA = 0 then .ok ⟨0, 0, 0, 0⟩
    else
      let out (src dstChannel : UInt8) : ℕ :=
        (src.toNat * pixel.a.toNat + dstChannel.toNat * dst.a.toNat * inv / 255) / outA
      toBytes (out pixel.r dst.r) (out pixel.g dst.g) (out pixel.b dst.b) outA

def Cell.alphaPaste (c : Cell) (x y : ℤ) (pixel : Rgba) : Except SheetError Cell :=
  if ¬ InCell x y then .ok c
  else do .ok (c.set x y (← blend pixel (c.get x.toNat y.toNat)))

/-- The loop that `_shift` and `_walk_phase` share: paste the visible pixels of the cell at the
given positions where `target` puts them. -/
def pasteVisible (c : Cell) (target : ℕ → ℕ → ℤ × ℤ) :
    Cell → List (ℕ × ℕ) → Except SheetError Cell
  | out, [] => .ok out
  | out, (x, y) :: rest => do
    let pixel := c.get x y
    if pixel.a = 0 then pasteVisible c target out rest
    else
      pasteVisible c target (← out.alphaPaste (target x y).1 (target x y).2 pixel) rest

def shift (c : Cell) (dx dy : ℤ) : Except SheetError Cell :=
  pasteVisible c (fun x y => (x + dx, y + dy)) .blank (positions cell cell)

def mirrorH (c : Cell) : Cell :=
  (positions cell cell).foldl (fun out p => out.set (cell - 1 - p.1) p.2 (c.get p.1 p.2)) .blank

/-- The columns of the legs, and where the left pair ends: `x_min, x_max, split`. -/
structure Legs where
  xMin : ℕ
  xMax : ℕ
  split : ℕ

def legs (facingRight : Bool) : Legs := if facingRight then ⟨50, 92, 71⟩ else ⟨32, 74, 53⟩

def yMin : ℕ := 80

/-- The positions in the box of the legs, row by row. -/
def Legs.box (l : Legs) : List (ℕ × ℕ) :=
  (List.range' yMin (cell - yMin)).flatMap fun y =>
    (List.range' l.xMin (l.xMax + 1 - l.xMin)).map fun x => (x, y)

/-- Where a pixel of the legs is moved to. -/
def Legs.target (l : Legs) (phase : ℤ) (x y : ℕ) : ℤ × ℤ :=
  let side : ℤ := if x < l.split then -1 else 1
  let dx := side * phase * 3
  let dy := if 0 < side * phase ∧ 94 < y then -1 else 0
  (x + dx, y + dy)

/-- The cell with the box of the legs emptied. -/
def Legs.clear (l : Legs) (c : Cell) : Cell :=
  l.box.foldl (fun out p => out.set p.1 p.2 ⟨0, 0, 0, 0⟩) c

def walkPhase (c : Cell) (facingRight : Bool) (phase : ℤ) : Except SheetError Cell := do
  let l := legs facingRight
  let out ← pasteVisible c (l.target phase) (l.clear c) l.box
  shift out 0 (if phase < 0 then -1 else 0)

deriving instance DecidableEq for RgbaImage

/-- The corner of a cell in a sheet of `columns` columns. -/
def corner (columns index : ℕ) : ℕ × ℕ := (index % columns * cell, index / columns * cell)

/-- `image.pixel(x, y)`. A slice past the end of the buffer is empty. -/
def readPixel (image : RgbaImage) (x y : ℕ) : Except SheetError Rgba :=
  if image.offset x y + 4 ≤ image.pixels.length then .ok (image.pixel x y)
  else .error (.valueError "not enough values to unpack (expected 4, got 0)")

/-- The loop of `_crop_cell`. -/
def cropFrom (image : RgbaImage) (cellX cellY : ℕ) :
    Cell → List (ℕ × ℕ) → Except SheetError Cell
  | out, [] => .ok out
  | out, (x, y) :: rest => do
    cropFrom image cellX cellY (out.set x y (← readPixel image (cellX + x) (cellY + y))) rest

def cropCell (image : RgbaImage) (index : ℕ) : Except SheetError Cell :=
  cropFrom image (corner 4 index).1 (corner 4 index).2 .blank (positions cell cell)

/-- The number of bytes of a sheet. -/
def sheetSize (columns rows : ℕ) : ℕ := rows * cell * (columns * cell) * 4

/-- The pixels of a cell written into the buffer of a sheet. -/
def placeCell (pixels : List UInt8) (columns index : ℕ) (c : Cell) : List UInt8 :=
  let cellX := (corner columns index).1
  let cellY := (corner columns index).2
  (positions cell cell).foldl
    (fun pixels p => setSheet pixels (columns * cell) (cellX + p.1) (cellY + p.2) (c.get p.1 p.2))
    pixels

/-- The cells written one after the other, each at its index. -/
def placeCells (columns : ℕ) (pixels : List UInt8) (cells : List (Cell × ℕ)) : List UInt8 :=
  cells.foldl (fun pixels c => placeCell pixels columns c.2 c.1) pixels

theorem corner_fits {columns rows index x y : ℕ} (h : index < rows * columns) (hx : x < cell)
    (hy : y < cell) : (corner columns index).1 + x < columns * cell ∧
      (corner columns index).2 + y < rows * cell := by
  have hcolumns : 0 < columns := Nat.pos_of_mul_pos_left (Nat.zero_lt_of_lt h)
  have hcolumn : (index % columns + 1) * cell ≤ columns * cell :=
    Nat.mul_le_mul_right cell (Nat.mod_lt index hcolumns)
  have hrow : (index / columns + 1) * cell ≤ rows * cell :=
    Nat.mul_le_mul_right cell (Nat.div_lt_of_lt_mul (by rwa [Nat.mul_comm]))
  rw [Nat.succ_mul] at hcolumn hrow
  simp only [corner]
  omega

theorem length_placeCell {pixels : List UInt8} {columns rows index : ℕ} (c : Cell)
    (hsize : pixels.length = sheetSize columns rows) (h : index < rows * columns) :
    (placeCell pixels columns index c).length = sheetSize columns rows := by
  have hinside : ∀ p ∈ positions cell cell, p.1 < cell ∧ p.2 < cell := fun p hp =>
    mem_positions.mp hp
  rw [placeCell]
  generalize positions cell cell = ps at hinside
  induction ps generalizing pixels with
  | nil => exact hsize
  | cons p ps ih =>
    obtain ⟨⟨hx, hy⟩, hrest⟩ := List.forall_mem_cons.mp hinside
    obtain ⟨hfitsX, hfitsY⟩ := corner_fits h hx hy
    rw [List.foldl_cons]
    exact ih (length_setSheet hsize hfitsX hfitsY) hrest

theorem length_placeCells {columns rows : ℕ} {cells : List (Cell × ℕ)} {pixels : List UInt8}
    (hsize : pixels.length = sheetSize columns rows)
    (h : ∀ c ∈ cells, c.2 < rows * columns) :
    (placeCells columns pixels cells).length = sheetSize columns rows := by
  rw [placeCells]
  induction cells generalizing pixels with
  | nil => exact hsize
  | cons c cells ih =>
    obtain ⟨hc, hrest⟩ := List.forall_mem_cons.mp h
    rw [List.foldl_cons]
    exact ih (length_placeCell c.1 hsize hc) hrest

def composeSheet (cells : List Cell) (columns : ℕ) : Except SheetError RgbaImage :=
  if h : cells.length % columns = 0 then
    let rows := cells.length / columns
    .ok {
      width := columns * cell
      height := rows * cell
      pixels :=
        placeCells columns (List.replicate (sheetSize columns rows) 0) cells.zipIdx
      size_eq := by
        have hcount : rows * columns = cells.length :=
          Nat.div_mul_cancel (Nat.dvd_of_mod_eq_zero h)
        rw [length_placeCells List.length_replicate, sheetSize, Nat.mul_assoc]
        intro c hc
        have hindex := List.snd_lt_of_mem_zipIdx hc
        omega }
  else .error (.valueError "cell count must be a multiple of columns")

/-- The cells of the motion sheet, in its order. -/
def derivedCells (cells : SourcePose → Cell) : Except SheetError (List Cell) := do
  .ok [
    ← shift (cells .sittingIdle) 0 (-1),
    ← shift (cells .sittingIdle) 0 1,
    cells .sittingIdle,
    ← shift (cells .sittingIdle) 0 (-1),
    cells .listening,
    ← shift (cells .happyBounce) 0 (-1),
    ← shift (cells .happyBounce) 0 1,
    ← shift (cells .pawLift) 1 (-1),
    ← shift (cells .relaxedLoaf) 0 1,
    ← shift (cells .sleepingCurled) 0 1,
    ← shift (cells .sadDroop) (-1) 1,
    mirrorH (cells .confusedHeadTilt),
    ← walkPhase (cells .lookingLeft) false 1,
    ← walkPhase (cells .lookingLeft) false (-1),
    ← walkPhase (cells .lookingRight) true 1,
    ← walkPhase (cells .lookingRight) true (-1)]

/-- `derive_motion_sheet` on a sheet that was read. What is written is returned. With `check`, the
sheet that stands at the output path, nothing is. -/
def deriveMotionSheet (source : RgbaImage) (outputPath : String) (check : Option RgbaImage) :
    Except SheetError (Option RgbaImage) := do
  let cropped ← SourcePose.all.mapM fun pose => cropCell source pose.index
  let derived ← derivedCells fun pose => cropped.getD pose.index .blank
  let image ← composeSheet derived 4
  match check with
  | some existing =>
    if existing ≠ image then
      .error (.runtimeError s!"{outputPath} is out of date; regenerate motion sheet")
    else .ok none
  | none => .ok (some image)

end Hologotchi.Motion
