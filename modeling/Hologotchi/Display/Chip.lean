import Hologotchi.Motion.Canvas

/-! The display chip of the simulator (`device/wokwi/src/ssd1351.c`). A pin that is `true` is
high. -/
namespace Hologotchi.Display

open Sprite

abbrev width : ℕ := 128
abbrev height : ℕ := 128
/-- The most bytes that are read at once. -/
def spiChunk : ℕ := 4096

abbrev Place := Fin width × Fin height

/-- A buffer of `RGBA_BYTES`. -/
structure Bitmap where
  bytes : List UInt8
  size_eq : bytes.length = height * width * 4

namespace Bitmap

def blank : Bitmap := ⟨List.replicate (height * width * 4) 0, List.length_replicate⟩

def look (b : Bitmap) (p : Place) : Rgba := Motion.pixelAt b.bytes width p.1 p.2

def put (b : Bitmap) (p : Place) (pixel : Rgba) : Bitmap where
  bytes := Motion.setSheet b.bytes width p.1 p.2 pixel
  size_eq := Motion.length_setSheet b.size_eq p.1.isLt p.2.isLt

end Bitmap

def cmdDisplayOff : UInt8 := 0xae
def cmdDisplayOn : UInt8 := 0xaf
def cmdSetRemap : UInt8 := 0xa0
def cmdSetColumn : UInt8 := 0x15
def cmdSetRow : UInt8 := 0x75
def cmdWriteRam : UInt8 := 0x5c

def remapVerticalIncrement : UInt8 := 0x01
def remapMirrorH : UInt8 := 0x02
def remapBgr : UInt8 := 0x04
def remapFlipV : UInt8 := 0x10

def argCountForCmd (cmd : UInt8) : ℕ :=
  if cmd = cmdSetColumn ∨ cmd = cmdSetRow then 2
  else if cmd = cmdSetRemap then 1
  else if cmd ∈ [0xfd, 0xb3, 0xca, 0xa1, 0xa2, 0xb5, 0xab, 0xc7, 0xb1, 0xb6, 0xbe] then 1
  else if cmd ∈ [0xb4, 0xc1] then 3
  else 0

/-- The columns or the rows of the window, `col_start` to `col_end` or `row_start` to `row_end`. -/
structure Span where
  first : Fin 128
  last : Fin 128
  le : first ≤ last

def clampU8 (value : UInt8) : Fin 128 := ⟨min value.toNat 127, by omega⟩

def normalizeWindow (first last : Fin 128) : Span :=
  if h : last < first then ⟨last, first, Fin.le_of_lt h⟩ else ⟨first, last, Fin.not_lt.mp h⟩

def Span.full : Span := ⟨0, 127, by decide⟩

def Span.size (s : Span) : ℕ := s.last - s.first + 1

/-- What the commands set and the pixels change. -/
structure Panel where
  /-- What the simulator shows. -/
  framebuffer : Bitmap
  rgba : Bitmap
  displayOn : Bool
  verticalIncrement : Bool
  mirrorH : Bool
  flipV : Bool
  bgr : Bool
  cols : Span
  rows : Span

namespace Panel

def blankDisplay (p : Panel) : Panel := { p with framebuffer := .blank }

def presentDisplay (p : Panel) : Panel :=
  if p.displayOn then { p with framebuffer := p.rgba } else p

/-- What `apply_current_command` makes of the panel. -/
def apply (p : Panel) (cmd : UInt8) (args : List UInt8) : Panel :=
  let arg (i : ℕ) : UInt8 := args.getD i 0
  if cmd = cmdDisplayOff then { p with displayOn := false }.blankDisplay
  else if cmd = cmdDisplayOn then { p with displayOn := true }.presentDisplay
  else if cmd = cmdSetRemap then
    { p with
      verticalIncrement := arg 0 &&& remapVerticalIncrement ≠ 0
      mirrorH := arg 0 &&& remapMirrorH ≠ 0
      flipV := arg 0 &&& remapFlipV ≠ 0
      bgr := arg 0 &&& remapBgr ≠ 0 }
  else if cmd = cmdSetColumn then
    { p with cols := normalizeWindow (clampU8 (arg 0)) (clampU8 (arg 1)) }
  else if cmd = cmdSetRow then
    { p with rows := normalizeWindow (clampU8 (arg 0)) (clampU8 (arg 1)) }
  else p

end Panel

/-- A read that `spi_start` began: how many bytes it waits for, and those it has. -/
structure Transfer where
  count : ℕ
  received : List UInt8

/-- What becomes of a read: it waits for more, or its buffer goes to `chip_spi_done`. -/
inductive SpiRead
  | waiting (t : Transfer)
  | done (buffer : List UInt8)

/-- The SPI side of the simulator's runtime, which is no part of the chip: what a byte on the bus
and `spi_stop` make of a read. -/
class SpiRuntime where
  byte : Transfer → UInt8 → SpiRead
  stop : Transfer → List UInt8
  /-- A read goes on until it has the bytes it waits for. -/
  byte_more : ∀ {count : ℕ} {received : List UInt8} (value : UInt8),
    received.length + 1 < count →
      byte ⟨count, received⟩ value = .waiting ⟨count, received ++ [value]⟩
  /-- Then it hands them over. -/
  byte_last : ∀ {count : ℕ} {received : List UInt8} (value : UInt8),
    received.length + 1 = count → byte ⟨count, received⟩ value = .done (received ++ [value])
  /-- One that is stopped before its first byte has nothing to hand over. -/
  stop_unread : ∀ count, stop ⟨count, []⟩ = []

structure Chip extends Panel where
  csPin : Bool
  dcPin : Bool
  rstPin : Bool
  transfer : Option Transfer
  currentCmd : UInt8
  args : List UInt8
  argsExpected : ℕ
  nextCol : Fin width
  nextRow : Fin height
  pendingWriteBytes : ℕ
  /-- The first byte of a pixel whose second one is still to come. -/
  pixelByte : Option UInt8

/-- What happens on the wires of the chip. -/
inductive Signal
  | rst (high : Bool)
  | cs (high : Bool)
  | dc (high : Bool)
  | byte (value : UInt8)

/-- A byte pair as the word it stands for. -/
def wordOf (high low : UInt8) : UInt16 := high.toUInt16 <<< 8 ||| low.toUInt16

def swapRedBlue (word : UInt16) : UInt16 :=
  let red := (word >>> 11) &&& 0x1f
  let green := (word >>> 5) &&& 0x3f
  let blue := word &&& 0x1f
  blue <<< 11 ||| green <<< 5 ||| red

/-- The pixel that `write_pixel` stores for a word. -/
def rgbaOf (word : UInt16) : Rgba :=
  let red := ((word >>> 11) &&& 0x1f).toUInt8
  let green := ((word >>> 5) &&& 0x3f).toUInt8
  let blue := (word &&& 0x1f).toUInt8
  ⟨red <<< 3 ||| red >>> 2, green <<< 2 ||| green >>> 4, blue <<< 3 ||| blue >>> 2, 0xff⟩

namespace Chip

def resetPanel (c : Chip) : Chip :=
  { c with
    framebuffer := .blank
    rgba := .blank
    displayOn := false
    verticalIncrement := false
    mirrorH := false
    flipV := false
    bgr := false
    cols := .full
    rows := .full
    currentCmd := 0
    args := []
    argsExpected := 0
    nextCol := 0
    nextRow := 0
    pendingWriteBytes := 0
    pixelByte := none }

/-- `chip_init`: the pins `CS` and `RST` are pulled up. -/
def chipInit : Chip := resetPanel
  { framebuffer := .blank
    rgba := .blank
    displayOn := false
    verticalIncrement := false
    mirrorH := false
    flipV := false
    bgr := false
    cols := .full
    rows := .full
    csPin := true
    dcPin := false
    rstPin := true
    transfer := none
    currentCmd := 0
    args := []
    argsExpected := 0
    nextCol := 0
    nextRow := 0
    pendingWriteBytes := 0
    pixelByte := none }

def beginWriteRam (c : Chip) : Chip :=
  { c with
    nextCol := c.cols.first
    nextRow := c.rows.first
    pendingWriteBytes := c.cols.size * c.rows.size * 2
    pixelByte := none }

def applyCurrentCommand (c : Chip) : Chip :=
  let c := { c with toPanel := c.toPanel.apply c.currentCmd c.args }
  let c := if c.currentCmd = cmdWriteRam then c.beginWriteRam else c
  { c with argsExpected := 0, args := [] }

def handleCommandByte (c : Chip) (value : UInt8) : Chip :=
  let c := { c with currentCmd := value, argsExpected := argCountForCmd value, args := [] }
  if c.argsExpected = 0 then c.applyCurrentCommand else c

def handleDataByte (c : Chip) (value : UInt8) : Chip :=
  if 0 < c.pendingWriteBytes then c
  else if c.argsExpected = 0 then c
  else if 3 ≤ c.args.length then c
  else
    let c := { c with args := c.args ++ [value] }
    if c.args.length = c.argsExpected then c.applyCurrentCommand else c

def advanceCursor (c : Chip) : Chip :=
  if c.verticalIncrement then
    if h : c.nextRow < c.rows.last then { c with nextRow := ⟨c.nextRow + 1, by omega⟩ }
    else
      let c := { c with nextRow := c.rows.first }
      if h : c.nextCol < c.cols.last then { c with nextCol := ⟨c.nextCol + 1, by omega⟩ } else c
  else
    if h : c.nextCol < c.cols.last then { c with nextCol := ⟨c.nextCol + 1, by omega⟩ }
    else
      let c := { c with nextCol := c.cols.first }
      if h : c.nextRow < c.rows.last then { c with nextRow := ⟨c.nextRow + 1, by omega⟩ } else c

def writePixel (c : Chip) (word : UInt16) : Chip :=
  let x := if c.mirrorH then c.nextCol.rev else c.nextCol
  let y := if c.flipV then c.nextRow.rev else c.nextRow
  { c with rgba := c.rgba.put (x, y) (rgbaOf word) }.advanceCursor

/-- The loop of `handle_ram_bytes`. -/
def ramByte (c : Chip) (byte : UInt8) : Chip :=
  let c := { c with pendingWriteBytes := c.pendingWriteBytes - 1 }
  match c.pixelByte with
  | none => { c with pixelByte := some byte }
  | some high =>
    let word := wordOf high byte
    { c with pixelByte := none }.writePixel (if c.bgr then swapRedBlue word else word)

def handleRamBytes (c : Chip) (buffer : List UInt8) : Chip :=
  let c := buffer.foldl ramByte c
  if c.pendingWriteBytes = 0 ∧ c.pixelByte = none then { c with toPanel := c.presentDisplay }
  else c

def startNextSpiRead (c : Chip) : Chip :=
  if c.csPin then c
  else
    let count :=
      if 0 < c.pendingWriteBytes ∧ c.dcPin then min c.pendingWriteBytes spiChunk else 1
    { c with transfer := some ⟨count, []⟩ }

/-- `chip_spi_done`. -/
def spiDone (c : Chip) (buffer : List UInt8) : Chip :=
  if buffer.length = 0 then c
  else
    let c :=
      if c.dcPin then
        if 0 < c.pendingWriteBytes then c.handleRamBytes buffer else buffer.foldl handleDataByte c
      else buffer.foldl handleCommandByte c
    c.startNextSpiRead

section Bus

variable [R : SpiRuntime]

def spiByte (c : Chip) (value : UInt8) : Chip :=
  match c.transfer with
  | none => c
  | some t =>
    match SpiRuntime.byte t value with
    | .waiting t => { c with transfer := some t }
    | .done buffer => { c with transfer := none }.spiDone buffer

def spiStop (c : Chip) : Chip :=
  match c.transfer with
  | none => c
  | some t => { c with transfer := none }.spiDone (SpiRuntime.stop t)

/-- `chip_pin_change`, and what the bus hands over. -/
def signal (c : Chip) : Signal → Chip
  | .rst high =>
    let falls : Bool := c.rstPin && !high
    let c := { c with rstPin := high }
    if falls then c.resetPanel else c
  | .cs high =>
    if c.csPin = high then c
    else
      let c := { c with csPin := high }
      if high then c.spiStop else c.startNextSpiRead
  | .dc high => { c with dcPin := high }
  | .byte value => c.spiByte value

/-- The chip after some signals. -/
def run (c : Chip) (signals : List Signal) : Chip := signals.foldl signal c

end Bus

end Chip

theorem look_put : Library.Layers.Lawful Bitmap.look Bitmap.put := by
  intro b p pixel q
  exact (Motion.pixelAt_setSheet b.size_eq p.1.isLt p.2.isLt q.1.isLt).trans
    (by simp only [Prod.ext_iff, Fin.ext_iff]; rfl)

end Hologotchi.Display
