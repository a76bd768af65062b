import Hologotchi.Display.Chip
import Hologotchi.Sprite.Decoder

/-! The display driver of the firmware (`device/src/display.rs`): its framebuffer, and what it
puts on the wires. -/
namespace Hologotchi.Display

open Sprite

def fbLen : ℕ := width * height * 2

def cmdCommandLock : UInt8 := 0xfd
def cmdClockDiv : UInt8 := 0xb3
def cmdMuxRatio : UInt8 := 0xca
def cmdStartLine : UInt8 := 0xa1
def cmdDisplayOffset : UInt8 := 0xa2
def cmdNormalDisplay : UInt8 := 0xa6
def cmdSetGpio : UInt8 := 0xb5
def cmdFunctionSelect : UInt8 := 0xab
def cmdSetVsl : UInt8 := 0xb4
def cmdContrastAbc : UInt8 := 0xc1
def cmdContrastMaster : UInt8 := 0xc7
def cmdPrecharge : UInt8 := 0xb1
def cmdPrecharge2 : UInt8 := 0xb6
def cmdVcomh : UInt8 := 0xbe

def remap65kColor : UInt8 := 0b0100_0000
def remapComSplit : UInt8 := 0b0010_0000

/-- How the framebuffer maps onto the panel. -/
structure Orientation where
  verticalIncrement : Bool
  mirrorH : Bool
  flipV : Bool
  bgr : Bool
  deriving DecidableEq, Repr

namespace Orientation

def panel : Orientation := ⟨false, false, true, true⟩

/-- Corrected for the cube, which reflects the picture. -/
def cube : Orientation := ⟨false, true, true, true⟩

/-- For a panel that is mounted sideways behind the cube. -/
def cubeRotatedCw : Orientation := ⟨true, false, true, true⟩

def remapByte (o : Orientation) : UInt8 :=
  let b := remap65kColor ||| remapComSplit
  let b := if o.verticalIncrement then b ||| remapVerticalIncrement else b
  let b := if o.mirrorH then b ||| remapMirrorH else b
  let b := if o.flipV then b ||| remapFlipV else b
  if o.bgr then b ||| remapBgr else b

end Orientation

abbrev Framebuffer := Vector UInt8 fbLen

/-- `rgb565_bytes`: the word of a colour, the high byte first. -/
def rgb565Bytes (color : Rgb565) : UInt8 × UInt8 :=
  let word := color.r <<< 11 ||| color.g <<< 5 ||| color.b
  ((word >>> 8).toUInt8, word.toUInt8)

/-- On the panel, where `draw_iter` does not skip a pixel. -/
def OnPanel (x y : ℤ) : Prop := ¬ (x < 0 ∨ y < 0 ∨ width ≤ x.toNat ∨ height ≤ y.toNat)

instance (x y : ℤ) : Decidable (OnPanel x y) := inferInstanceAs (Decidable (¬ _))

theorem OnPanel.offset_lt {x y : ℤ} (h : OnPanel x y) :
    (y.toNat * width + x.toNat) * 2 + 1 < fbLen := by
  rw [OnPanel] at h
  simp only [fbLen, width, height] at h ⊢
  omega

namespace Framebuffer

def blank : Framebuffer := .replicate fbLen 0

/-- The body of the loop of `draw_iter`. -/
def drawPixel (fb : Framebuffer) (p : Pixel) : Framebuffer :=
  if h : OnPanel p.x p.y then
    let idx := (p.y.toNat * width + p.x.toNat) * 2
    let bytes := rgb565Bytes p.color
    (fb.set idx bytes.1 (Nat.lt_of_succ_lt h.offset_lt)).set (idx + 1) bytes.2 h.offset_lt
  else fb

def drawIter (fb : Framebuffer) (pixels : List Pixel) : Framebuffer := pixels.foldl drawPixel fb

/-- `chunks_exact_mut(2)`, each chunk set to the two bytes of the colour. -/
def clear (fb : Framebuffer) (color : Rgb565) : Framebuffer :=
  let bytes := rgb565Bytes color
  if bytes.1 = bytes.2 then fb.map fun _ => bytes.1
  else Vector.ofFn fun i => if i.val % 2 = 0 then bytes.1 else bytes.2

end Framebuffer

/-- What `cmd` sends after the command itself. -/
def argSignals (args : List UInt8) : List Signal :=
  if args.isEmpty then [] else .dc true :: args.map .byte

def cmd (command : UInt8) (args : List UInt8) : List Signal :=
  [.cs false, .dc false, .byte command] ++ argSignals args ++ [.cs true]

def reset : List Signal := [.rst true, .rst false, .rst true]

def setFullWindow : List Signal :=
  cmd cmdSetColumn [0x00, UInt8.ofNat (width - 1)] ++ cmd cmdSetRow [0x00, UInt8.ofNat (height - 1)]

/-- `flush` up to its pixel data. -/
def address : List Signal := setFullWindow ++ [.cs false, .dc false]

def flush (fb : Framebuffer) : List Signal :=
  address ++ ([.byte cmdWriteRam, .dc true] ++ fb.toList.map .byte ++ [.cs true])

/-- The commands of `init` before it clears the panel. -/
def configure (o : Orientation) : List (UInt8 × List UInt8) :=
  [(cmdCommandLock, [0x12]), (cmdCommandLock, [0xb1]), (cmdDisplayOff, []), (cmdClockDiv, [0xf1]),
    (cmdMuxRatio, [0x7f]), (cmdDisplayOffset, [0x00]), (cmdStartLine, [0x00]), (cmdSetGpio, [0x00]),
    (cmdFunctionSelect, [0x01]), (cmdSetVsl, [0xa0, 0xb5, 0x55]),
    (cmdContrastAbc, [0xc8, 0x80, 0xc8]), (cmdContrastMaster, [0x0f]), (cmdPrecharge, [0x32]),
    (cmdPrecharge2, [0x01]), (cmdVcomh, [0x05]), (cmdNormalDisplay, []),
    (cmdSetRemap, [o.remapByte])]

def init (o : Orientation) : List Signal :=
  reset ++ ((configure o).flatMap fun c => cmd c.1 c.2) ++ flush .blank ++
    cmd cmdDisplayOn []

/-- How a call of `flush` ends. A write that fails ends it at once, without raising `cs`. -/
inductive Flush
  | done (fb : Framebuffer)
  /-- It fails after so many signals. -/
  | failed (fb : Framebuffer) (sent : ℕ)

namespace Flush

def signals : Flush → List Signal
  | .done fb => flush fb
  | .failed fb sent => (flush fb).take sent

/-- It does not fail behind the command that the pixel data follows. -/
def Early : Flush → Prop
  | .done _ => True
  | .failed _ sent => sent ≤ address.length

instance : DecidablePred Early
  | .done _ => inferInstanceAs (Decidable True)
  | .failed _ sent => inferInstanceAs (Decidable (sent ≤ address.length))

end Flush

end Hologotchi.Display
