import Mathlib.Data.Int.Notation
import Mathlib.Algebra.Order.Group.Unbundled.Abs
import Mathlib.Algebra.Order.Group.Int

/-! The rows of a PNG file (`host/tools/convert_sprite_sheet.py`). -/
namespace Hologotchi.Png

structure RgbaImage where
  width : ℕ
  height : ℕ
  pixels : List UInt8
  deriving DecidableEq, Repr

inductive PngError
  | valueError (message : String)
  | indexError
  deriving DecidableEq, Repr

/-- `data[index]`, for an index that is not negative. -/
def item (data : List UInt8) (index : ℕ) : Except PngError UInt8 :=
  match data[index]? with
  | some byte => .ok byte
  | none => .error .indexError

def paeth (left up upperLeft : ℕ) : ℕ :=
  let estimate : ℤ := left + up - upperLeft
  let leftDist := |estimate - left|
  let upDist := |estimate - up|
  let upperLeftDist := |estimate - upperLeft|
  if leftDist ≤ upDist ∧ leftDist ≤ upperLeftDist then left
  else if upDist ≤ upperLeftDist then up
  else upperLeft

/-- The branches of `_unfilter_scanline`. -/
def unfilteredValue (filterType encoded left up upperLeft : ℕ) : Except PngError ℕ :=
  match filterType with
  | 0 => .ok encoded
  | 1 => .ok (encoded + left)
  | 2 => .ok (encoded + up)
  | 3 => .ok (encoded + (left + up) / 2)
  | 4 => .ok (encoded + paeth left up upperLeft)
  | _ => .error (.valueError s!"unsupported PNG filter type {filterType}")

/-- One pass of the loop of `_unfilter_scanline`, at index `out.length`: what it puts there. -/
def unfilterByte (filterType : ℕ) (prev : List UInt8) (bpp : ℕ) (out : List UInt8)
    (encoded : UInt8) : Except PngError UInt8 := do
  let index := out.length
  let left := if bpp ≤ index then out.getD (index - bpp) 0 else 0
  let up ← item prev index
  let upperLeft ← (if bpp ≤ index then item prev (index - bpp) else .ok 0)
  let value ← unfilteredValue filterType encoded.toNat left.toNat up.toNat upperLeft.toNat
  .ok (UInt8.ofNat (value &&& 0xff))

/-- The loop of `_unfilter_scanline`. The source's `out` has zeros where ours ends. -/
def unfilterFrom (filterType : ℕ) (prev : List UInt8) (bpp : ℕ) (out : List UInt8) :
    List UInt8 → Except PngError (List UInt8)
  | [] => .ok out
  | encoded :: scanline => do
    let byte ← unfilterByte filterType prev bpp out encoded
    unfilterFrom filterType prev bpp (out ++ [byte]) scanline

def unfilterScanline (filterType : ℕ) (scanline prev : List UInt8) (bpp : ℕ) :
    Except PngError (List UInt8) :=
  unfilterFrom filterType prev bpp [] scanline

/-- The row loop of `read_rgba_png`, over the data from `offset` on. -/
def readRows (stride : ℕ) : ℕ → List UInt8 → List UInt8 → Except PngError (List (List UInt8))
  | 0, _, _ => .ok []
  | height + 1, prev, data => do
    let filterType ← item data 0
    let scanline := (data.drop 1).take stride
    let row ← unfilterScanline filterType.toNat scanline prev 4
    let rows ← readRows stride height row ((data.drop 1).drop stride)
    .ok (row :: rows)

/-- `read_rgba_png` once the image data is decompressed. -/
def readPixels (path : String) (width height : ℕ) (decompressed : List UInt8) :
    Except PngError RgbaImage := do
  let stride := width * 4
  let expected := height * (stride + 1)
  let length := decompressed.length
  if length ≠ expected then
    .error (.valueError s!"{path} decompressed to {length} bytes, expected {expected}")
  let rows ← readRows stride height (List.replicate stride 0) decompressed
  .ok ⟨width, height, rows.flatten⟩

end Hologotchi.Png
