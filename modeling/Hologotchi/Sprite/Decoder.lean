import Hologotchi.Rust
import Mathlib.Data.Nat.Notation

/-! The sprite decoder of the firmware (`SpritePixels` in `device/src/render.rs`). Coordinates are
`i32`, as integers. -/
namespace Hologotchi

/-- A sprite of the generated `shiro_sprites.rs`. -/
structure Sprite where
  x : Int16
  y : Int16
  width : UInt8
  height : UInt8
  data : List UInt8
  deriving DecidableEq, Repr

end Hologotchi

namespace Hologotchi.Sprite

open Rust

structure Rgb565 where
  r : UInt16
  g : UInt16
  b : UInt16
  deriving DecidableEq, Repr

def rgb565Color (word : UInt16) : Rgb565 :=
  ⟨(word >>> 11) &&& 0x1f, (word >>> 5) &&& 0x3f, word &&& 0x1f⟩

def rgb565Black : Rgb565 := ⟨0, 0, 0⟩

structure Pixel where
  x : ℤ
  y : ℤ
  color : Rgb565
  deriving DecidableEq, Repr

structure SpritePixels where
  sprite : Sprite
  originX : ℤ
  originY : ℤ
  /-- The data from `data_pos` on. -/
  unread : List UInt8
  pixelIndex : ℕ
  solidLeft : ℕ
  solidColor : Rgb565
  deriving DecidableEq, Repr

namespace SpritePixels

def new (sprite : Sprite) (originX originY : ℤ) : SpritePixels where
  sprite := sprite
  originX := originX
  originY := originY
  unread := sprite.data
  pixelIndex := 0
  solidLeft := 0
  solidColor := rgb565Black

def width (s : SpritePixels) : ℕ := s.sprite.width.toNat

/-- The number of positions in the box. -/
def total (s : SpritePixels) : ℕ := s.width * s.sprite.height.toNat

/-- The pixel at the cursor. -/
def pixel (checks : Bool) (s : SpritePixels) : Except Panic Pixel := do
  if s.width = 0 then .error .divisionByZero
  else
    let x ← addI32 checks s.originX (s.pixelIndex % s.width : ℕ)
    let y ← addI32 checks s.originY (s.pixelIndex / s.width : ℕ)
    .ok ⟨x, y, s.solidColor⟩

/-- The loop of `next`, with the unread data as the list it recurs on. -/
def nextFrom (checks : Bool) (palette : List UInt16) (s : SpritePixels) (unread : List UInt8) :
    Except Panic (Option Pixel × SpritePixels) :=
  if s.total ≤ s.pixelIndex then .ok (none, s)
  else if 0 < s.solidLeft then do
    let pixel ← s.pixel checks
    .ok (some pixel, { s with pixelIndex := s.pixelIndex + 1, solidLeft := s.solidLeft - 1 })
  else
    match unread with
    | [] => .ok (none, s)
    | command :: unread =>
      let runLen := (command &&& 0x7f).toNat + 1
      if command &&& 0x80 = 0 then
        nextFrom checks palette { s with unread, pixelIndex := s.pixelIndex + runLen } unread
      else
        match unread with
        | [] => .ok (none, { s with unread := [] })
        | paletteIndex :: unread =>
          let rgb565 := palette.getD paletteIndex.toNat 0
          nextFrom checks palette
            { s with unread, solidColor := rgb565Color rgb565, solidLeft := runLen } unread

def next (checks : Bool) (palette : List UInt16) (s : SpritePixels) :
    Except Panic (Option Pixel × SpritePixels) :=
  nextFrom checks palette s s.unread

/-- Drawing the iterator: the pixels it yields before it ends. -/
inductive Draws (checks : Bool) (palette : List UInt16) : SpritePixels → List Pixel → Prop
  | done {s s' : SpritePixels} : s.next checks palette = .ok (none, s') → Draws checks palette s []
  | pixel {s s' : SpritePixels} {p : Pixel} {ps : List Pixel} :
      s.next checks palette = .ok (some p, s') → Draws checks palette s' ps →
        Draws checks palette s (p :: ps)

/-- The coordinates of the box are `i32`. -/
structure Fits (s : SpritePixels) : Prop where
  left : -2 ^ 31 ≤ s.originX
  right : s.originX + s.sprite.width.toNat ≤ 2 ^ 31
  top : -2 ^ 31 ≤ s.originY
  bottom : s.originY + s.sprite.height.toNat ≤ 2 ^ 31

/-- The pixel at the cursor, by exact sums. -/
def exactPixel (s : SpritePixels) : Pixel where
  x := s.originX + (s.pixelIndex % s.width : ℕ)
  y := s.originY + (s.pixelIndex / s.width : ℕ)
  color := s.solidColor

/-- Inside the box nothing overflows, and nothing is divided by zero. -/
theorem pixel_ok {checks : Bool} {s : SpritePixels} (hfits : s.Fits) (h : s.pixelIndex < s.total) :
    s.pixel checks = .ok s.exactPixel := by
  have hwidth : 0 < s.width := by
    rw [total] at h
    exact Nat.pos_of_mul_pos_right (Nat.zero_lt_of_lt h)
  have hmod : s.pixelIndex % s.width < s.sprite.width.toNat := Nat.mod_lt _ hwidth
  have hdiv : s.pixelIndex / s.width < s.sprite.height.toNat := Nat.div_lt_of_lt_mul h
  obtain ⟨hleft, hright, htop, hbottom⟩ := hfits
  have hx : FitsI32 (s.originX + (s.pixelIndex % s.width : ℕ)) := by
    generalize s.pixelIndex % s.width = x at hmod
    exact ⟨by omega, by omega⟩
  have hy : FitsI32 (s.originY + (s.pixelIndex / s.width : ℕ)) := by
    generalize s.pixelIndex / s.width = y at hdiv
    exact ⟨by omega, by omega⟩
  rw [pixel, if_neg (Nat.ne_of_gt hwidth), addI32_ok hx, addI32_ok hy]
  rfl

end SpritePixels

/-- Nothing overflows where a sprite is drawn at an offset from its own place. -/
structure FitsAt (sprite : Sprite) (x y : ℤ) : Prop where
  fitsX : FitsI32 (x + sprite.x.toInt)
  fitsY : FitsI32 (y + sprite.y.toInt)
  box : (SpritePixels.new sprite (x + sprite.x.toInt) (y + sprite.y.toInt)).Fits

end Hologotchi.Sprite
