import Hologotchi.Library.RunLength
import Mathlib.Algebra.Group.Int.Defs

/-! The sprite encoder of the asset converter (`host/tools/convert_sprite_sheet.py`). -/
namespace Hologotchi.Sprite

open Library

def solidRunFlag : ℕ := 0x80
def maxRunLen : ℕ := 128

structure Rgba where
  r : UInt8
  g : UInt8
  b : UInt8
  a : UInt8
  deriving DecidableEq, Repr

structure RgbaImage where
  width : ℕ
  height : ℕ
  pixels : List UInt8
  size_eq : pixels.length = height * (width * 4)

/-- The byte offset of a pixel. -/
def RgbaImage.offset (image : RgbaImage) (x y : ℕ) : ℕ := (y * image.width + x) * 4

/-- Reads four bytes, all inside the buffer for a pixel of the image. -/
def RgbaImage.pixel (image : RgbaImage) (x y : ℕ) : Rgba :=
  let offset := image.offset x y
  ⟨image.pixels.getD offset 0, image.pixels.getD (offset + 1) 0,
    image.pixels.getD (offset + 2) 0, image.pixels.getD (offset + 3) 0⟩

structure SheetMeta where
  cellWidth : ℕ
  cellHeight : ℕ
  width_pos : 0 < cellWidth
  height_pos : 0 < cellHeight

structure SheetSpec where
  columns : ℕ
  rows : ℕ
  columns_pos : 0 < columns
  rows_pos : 0 < rows

/-- `_validate_sheet_shape`. -/
def ValidSheet (image : RgbaImage) (sizes : SheetMeta) (spec : SheetSpec) : Prop :=
  image.width = spec.columns * sizes.cellWidth ∧ image.height = spec.rows * sizes.cellHeight

/-- A sprite before it is printed as Rust source. -/
structure SpriteRust where
  x : ℤ
  y : ℤ
  width : ℤ
  height : ℤ
  data : List ℕ
  visiblePixels : ℕ
  deriving DecidableEq, Repr

/-- RGB565 words. -/
abbrev Palette := List UInt16

/-- Antialiasing is composited onto black, so the device needs no blending. -/
def compositeToRgb565 (p : Rgba) : ℕ :=
  let out (c : UInt8) := (c.toNat * p.a.toNat + 127) / 255
  ((out p.r >>> 3) <<< 11) ||| ((out p.g >>> 2) <<< 5) ||| (out p.b >>> 3)

def rgb565Components (rgb565 : ℕ) : ℤ × ℤ × ℤ :=
  (((rgb565 >>> 11) &&& 0x1f : ℕ), ((rgb565 >>> 5) &&& 0x3f : ℕ), (rgb565 &&& 0x1f : ℕ))

def colorDistance (a b : ℕ) : ℤ :=
  let s := rgb565Components a
  let t := rgb565Components b
  let dr := s.1 - t.1
  let dg := s.2.1 - t.2.1
  let db := s.2.2 - t.2.2
  dr * dr * 4 + dg * dg * 2 + db * db * 4

/-- The loop of `_nearest_palette_index` from `index` on. -/
def nearestFrom (rgb565 index bestIndex : ℕ) (bestDistance : ℤ) : Palette → ℕ
  | [] => bestIndex
  | color :: palette =>
    let distance := colorDistance rgb565 color.toNat
    if distance < bestDistance then nearestFrom rgb565 (index + 1) index distance palette
    else nearestFrom rgb565 (index + 1) bestIndex bestDistance palette

def nearestPaletteIndex (rgb565 : ℕ) (palette : Palette) : ℕ :=
  nearestFrom rgb565 0 0 (2 ^ 60) palette

/-- The bytes of one run. -/
def encodeRun (run : Option ℕ × ℕ) : List ℕ :=
  match run.1 with
  | none => [run.2 - 1]
  | some value => [solidRunFlag ||| (run.2 - 1), value]

/-- `_encode_rle`: the bytes of each run of equal indices, of at most `MAX_RUN_LEN`. -/
def encodeRle (indices : List (Option ℕ)) : List ℕ :=
  (RunLength.runs maxRunLen indices).flatMap encodeRun

/-- The box around the visible pixels, as it is while the cell is scanned. -/
structure Bounds where
  minX : ℕ
  minY : ℕ
  maxX : ℤ
  maxY : ℤ
  visiblePixels : ℕ
  deriving DecidableEq, Repr

def Bounds.add (b : Bounds) (x y : ℕ) : Bounds where
  minX := min b.minX x
  minY := min b.minY y
  maxX := max b.maxX x
  maxY := max b.maxY y
  visiblePixels := b.visiblePixels + 1

/-- The positions of a cell in raster order. -/
def positions (width height : ℕ) : List (ℕ × ℕ) :=
  (List.range height).flatMap fun y => (List.range width).map fun x => (x, y)

/-- A cell: its size and its pixels. -/
structure Cell where
  width : ℕ
  height : ℕ
  pixel : ℕ → ℕ → Rgba

/-- The cell of a pose on its sheet. -/
def cell (image : RgbaImage) (sizes : SheetMeta) (spec : SheetSpec) (poseIndex : ℕ) : Cell where
  width := sizes.cellWidth
  height := sizes.cellHeight
  pixel x y := image.pixel (poseIndex % spec.columns * sizes.cellWidth + x)
    (poseIndex / spec.columns * sizes.cellHeight + y)

variable (c : Cell) (palette : Palette) (alphaThreshold : ℕ)

def Cell.visible (x y : ℕ) : Bool := alphaThreshold ≤ (c.pixel x y).a.toNat

def Cell.bounds : Bounds :=
  (positions c.width c.height).foldl
    (fun b p => if c.visible alphaThreshold p.1 p.2 then b.add p.1 p.2 else b)
    ⟨c.width, c.height, -1, -1, 0⟩

/-- The palette index of a pixel, or nothing where it is transparent. -/
def Cell.index (x y : ℕ) : Option ℕ :=
  if c.visible alphaThreshold x y then
    some (nearestPaletteIndex (compositeToRgb565 (c.pixel x y)) palette)
  else none

/-- The indices inside a box, row by row. -/
def Cell.indices (minX minY width height : ℕ) : List (Option ℕ) :=
  (List.range height).flatMap fun y =>
    (List.range width).map fun x => c.index palette alphaThreshold (minX + x) (minY + y)

def encodeCell : SpriteRust :=
  let b := c.bounds alphaThreshold
  if b.maxX < b.minX ∨ b.maxY < b.minY then
    { x := 0, y := 0, width := 0, height := 0, data := [], visiblePixels := 0 }
  else
    let width := b.maxX - b.minX + 1
    let height := b.maxY - b.minY + 1
    { x := b.minX
      y := b.minY
      width := width
      height := height
      data := encodeRle (c.indices palette alphaThreshold b.minX b.minY width.toNat height.toNat)
      visiblePixels := b.visiblePixels }

def encodeSprite (image : RgbaImage) (sizes : SheetMeta) (spec : SheetSpec) (poseIndex : ℕ) :
    SpriteRust :=
  encodeCell (cell image sizes spec poseIndex) palette alphaThreshold

variable {c palette alphaThreshold}

/-- Every pixel of a cell lies inside the buffer of a sheet of the right shape. -/
theorem cell_offset_lt {image : RgbaImage} {sizes : SheetMeta} {spec : SheetSpec}
    {poseIndex x y : ℕ} (hsheet : ValidSheet image sizes spec)
    (hpose : poseIndex < spec.columns * spec.rows) (hx : x < sizes.cellWidth)
    (hy : y < sizes.cellHeight) :
    image.offset (poseIndex % spec.columns * sizes.cellWidth + x)
      (poseIndex / spec.columns * sizes.cellHeight + y) + 3 < image.pixels.length := by
  obtain ⟨hwidth, hheight⟩ := hsheet
  have hcol : poseIndex % spec.columns + 1 ≤ spec.columns := Nat.mod_lt _ spec.columns_pos
  have hrow : poseIndex / spec.columns + 1 ≤ spec.rows := by
    apply Nat.div_lt_of_lt_mul
    exact hpose
  have hcolumn : poseIndex % spec.columns * sizes.cellWidth + x < image.width := by
    have hmul := Nat.mul_le_mul_right sizes.cellWidth hcol
    rw [Nat.succ_mul, ← hwidth] at hmul
    omega
  have hline : poseIndex / spec.columns * sizes.cellHeight + y + 1 ≤ image.height := by
    have hmul := Nat.mul_le_mul_right sizes.cellHeight hrow
    rw [Nat.succ_mul, ← hheight] at hmul
    omega
  have hlines := Nat.mul_le_mul_right image.width hline
  rw [Nat.succ_mul] at hlines
  rw [RgbaImage.offset, image.size_eq, ← Nat.mul_assoc]
  omega

/-- The nearest colour is a colour of the palette. -/
theorem nearestFrom_lt {rgb565 index bestIndex : ℕ} {bestDistance : ℤ} {palette : Palette}
    {n : ℕ} (hbest : bestIndex < n) (hn : index + palette.length ≤ n) :
    nearestFrom rgb565 index bestIndex bestDistance palette < n := by
  induction palette generalizing index bestIndex bestDistance with
  | nil => exact hbest
  | cons color palette ih =>
    simp only [List.length_cons] at hn
    simp only [nearestFrom]
    split
    · exact ih (by omega) (by omega)
    · exact ih hbest (by omega)

theorem nearestPaletteIndex_lt (rgb565 : ℕ) (h : palette ≠ []) :
    nearestPaletteIndex rgb565 palette < palette.length := by
  apply nearestFrom_lt
  · exact List.length_pos_iff.mpr h
  · omega

end Hologotchi.Sprite
