import Hologotchi.Display.Commands
import Hologotchi.Library.Scan

/-! What the chip makes of pixel data, however it is read from the bus. -/
namespace Hologotchi.Display

open Library Sprite

/-- Where a pixel is written while the cursor stands at a place. -/
def Panel.flip (p : Panel) (q : Place) : Place :=
  (if p.mirrorH then q.1.rev else q.1, if p.flipV then q.2.rev else q.2)

/-- The place the cursor moves to. -/
def Panel.nextPlace (p : Panel) (q : Place) : Place :=
  if p.verticalIncrement then
    if h : q.2 < p.rows.last then (q.1, ⟨q.2 + 1, by omega⟩)
    else (if h : q.1 < p.cols.last then ⟨q.1 + 1, by omega⟩ else q.1, p.rows.first)
  else
    if h : q.1 < p.cols.last then (⟨q.1 + 1, by omega⟩, q.2)
    else (p.cols.first, if h : q.2 < p.rows.last then ⟨q.2 + 1, by omega⟩ else q.2)

/-- The pixel that two bytes of data are shown as. -/
def Panel.shade (p : Panel) (high low : UInt8) : Rgba :=
  rgbaOf (if p.bgr then swapRedBlue (wordOf high low) else wordOf high low)

namespace Chip

variable {c : Chip} {byte high : UInt8} {bytes received : List UInt8} {t : Option Transfer}
  {n k : ℕ}

theorem advanceCursor_eq (c : Chip) : c.advanceCursor = { c with
    nextCol := (c.nextPlace (c.nextCol, c.nextRow)).1
    nextRow := (c.nextPlace (c.nextCol, c.nextRow)).2 } := by
  simp only [advanceCursor, Panel.nextPlace]
  split_ifs <;> rfl

theorem ramByte_high (h : c.pixelByte = none) : c.ramByte byte =
    { c with pendingWriteBytes := c.pendingWriteBytes - 1, pixelByte := some byte } := by
  simp only [ramByte, h]

theorem ramByte_low (h : c.pixelByte = some high) : c.ramByte byte = { c with
    pendingWriteBytes := c.pendingWriteBytes - 1
    pixelByte := none
    rgba := c.rgba.put (c.flip (c.nextCol, c.nextRow)) (c.shade high byte)
    nextCol := (c.nextPlace (c.nextCol, c.nextRow)).1
    nextRow := (c.nextPlace (c.nextCol, c.nextRow)).2 } := by
  simp only [ramByte, h, writePixel, advanceCursor_eq]
  rfl

theorem ramByte_pair (h : c.pixelByte = none) (high low : UInt8) :
    (c.ramByte high).ramByte low = { c with
      pendingWriteBytes := c.pendingWriteBytes - 1 - 1
      rgba := c.rgba.put (c.flip (c.nextCol, c.nextRow)) (c.shade high low)
      nextCol := (c.nextPlace (c.nextCol, c.nextRow)).1
      nextRow := (c.nextPlace (c.nextCol, c.nextRow)).2 } := by
  have hlow : ∀ d : Chip, d.pixelByte = some high → d.ramByte low = _ := fun d hd => ramByte_low hd
  rw [ramByte_high h, hlow _ rfl]
  simp only [h]

theorem ramByte_transfer (c : Chip) (t : Option Transfer) (byte : UInt8) :
    ramByte { c with transfer := t } byte = { c.ramByte byte with transfer := t } := by
  rcases Option.eq_none_or_eq_some c.pixelByte with hpixel | ⟨high, hpixel⟩
  · rw [ramByte_high hpixel, ramByte_high (c := { c with transfer := t }) hpixel]
  · rw [ramByte_low hpixel, ramByte_low (c := { c with transfer := t }) hpixel]

theorem foldl_ramByte_transfer (c : Chip) (t : Option Transfer) (bytes : List UInt8) :
    bytes.foldl ramByte { c with transfer := t } =
      { bytes.foldl ramByte c with transfer := t } := by
  induction bytes generalizing c with
  | nil => rfl
  | cons byte bytes ih => rw [List.foldl_cons, ramByte_transfer, ih, List.foldl_cons]

theorem ramByte_frame (c : Chip) (byte : UInt8) :
    (c.ramByte byte).csPin = c.csPin ∧ (c.ramByte byte).dcPin = c.dcPin ∧
      (c.ramByte byte).pendingWriteBytes = c.pendingWriteBytes - 1 ∧
      (c.ramByte byte).framebuffer = c.framebuffer := by
  rcases Option.eq_none_or_eq_some c.pixelByte with hpixel | ⟨high, hpixel⟩
  · rw [ramByte_high hpixel]
    exact ⟨rfl, rfl, rfl, rfl⟩
  · rw [ramByte_low hpixel]
    exact ⟨rfl, rfl, rfl, rfl⟩

theorem foldl_ramByte_frame (c : Chip) (bytes : List UInt8) :
    (bytes.foldl ramByte c).csPin = c.csPin ∧ (bytes.foldl ramByte c).dcPin = c.dcPin ∧
      (bytes.foldl ramByte c).pendingWriteBytes = c.pendingWriteBytes - bytes.length ∧
      (bytes.foldl ramByte c).framebuffer = c.framebuffer := by
  induction bytes generalizing c with
  | nil => exact ⟨rfl, rfl, rfl, rfl⟩
  | cons byte bytes ih =>
    obtain ⟨hcs, hdc, hpending, hshown⟩ := ramByte_frame c byte
    obtain ⟨hcs', hdc', hpending', hshown'⟩ := ih (c.ramByte byte)
    refine ⟨hcs'.trans hcs, hdc'.trans hdc, ?_, hshown'.trans hshown⟩
    rw [List.foldl_cons, hpending', hpending, List.length_cons, Nat.sub_sub, Nat.add_comm]

/-- In the middle of pixel data, with a read in progress that does not outlast it. -/
structure Receiving (c : Chip) (n : ℕ) (received : List UInt8) : Prop where
  selected : c.csPin = false
  data : c.dcPin = true
  transfer : c.transfer = some ⟨n, received⟩
  unfilled : received.length < n
  within : n ≤ c.pendingWriteBytes

variable [SpiRuntime]

/-- A read that is not complete goes on. -/
theorem Receiving.wait (h : Receiving c n received) (hmore : received.length + 1 < n)
    (byte : UInt8) :
    c.signal (.byte byte) = { c with transfer := some ⟨n, received ++ [byte]⟩ } := by
  simp only [signal, spiByte, h.transfer, SpiRuntime.byte_more byte hmore]

/-- A read that is complete is handled. -/
theorem Receiving.complete (h : Receiving c n received) (hfull : received.length + 1 = n)
    (byte : UInt8) : c.signal (.byte byte) =
      (handleRamBytes { c with transfer := none } (received ++ [byte])).startNextSpiRead := by
  have hwithin := h.within
  have hmore : 0 < c.pendingWriteBytes := by omega
  have hlen : (received ++ [byte]).length = n := by rw [← hfull, List.length_append]; rfl
  have hsome : ¬ n = 0 := by omega
  simp only [signal, spiByte, h.transfer, SpiRuntime.byte_last byte hfull, spiDone, hlen, hsome,
    if_false, if_true, h.data, hmore]

/-- Before the end of the data another read begins. -/
theorem Receiving.complete_more (h : Receiving c n received) (hfull : received.length + 1 = n)
    (hmore : n < c.pendingWriteBytes) (byte : UInt8) : c.signal (.byte byte) =
      { (received ++ [byte]).foldl ramByte c with
        transfer := some ⟨min (c.pendingWriteBytes - n) spiChunk, []⟩ } := by
  obtain ⟨hcs, hdc, hpending, -⟩ := foldl_ramByte_frame c (received ++ [byte])
  have hlen : (received ++ [byte]).length = n := by rw [← hfull, List.length_append]; rfl
  have hsome : ¬ c.pendingWriteBytes - n = 0 := by omega
  have hdata : 0 < c.pendingWriteBytes - n := by omega
  rw [h.complete hfull, handleRamBytes, foldl_ramByte_transfer]
  rw [hlen] at hpending
  rw [h.selected] at hcs
  rw [h.data] at hdc
  generalize (received ++ [byte]).foldl ramByte c = after at hcs hdc hpending
  simp only [hpending, hsome, hdata, startNextSpiRead, hcs, hdc, and_self, false_and, if_true,
    if_false, Bool.false_eq_true]

/-- At the end of the data the picture is shown, and the chip listens again. -/
theorem Receiving.complete_last (h : Receiving c n received) (hfull : received.length + 1 = n)
    (hlast : n = c.pendingWriteBytes) (byte : UInt8)
    (hwhole : ((received ++ [byte]).foldl ramByte c).pixelByte = none) : c.signal (.byte byte) =
      { (received ++ [byte]).foldl ramByte c with
        toPanel := ((received ++ [byte]).foldl ramByte c).presentDisplay
        transfer := some ⟨1, []⟩ } := by
  obtain ⟨hcs, hdc, hpending, -⟩ := foldl_ramByte_frame c (received ++ [byte])
  have hlen : (received ++ [byte]).length = n := by rw [← hfull, List.length_append]; rfl
  rw [h.complete hfull, handleRamBytes, foldl_ramByte_transfer]
  rw [hlen, ← hlast, Nat.sub_self] at hpending
  rw [h.selected] at hcs
  generalize (received ++ [byte]).foldl ramByte c = after at hcs hpending hwhole
  simp only [hpending, hwhole, startNextSpiRead, hcs, and_self, false_and, if_true, if_false,
    Bool.false_eq_true, Nat.lt_irrefl]

/-- However the bytes are split into reads, all of them are handled, and then shown. -/
theorem Receiving.stream (h : Receiving c n received)
    (hall : received.length + bytes.length = c.pendingWriteBytes)
    (hwhole : ((received ++ bytes).foldl ramByte c).pixelByte = none) :
    c.run (bytes.map .byte) =
      { (received ++ bytes).foldl ramByte c with
        toPanel := ((received ++ bytes).foldl ramByte c).presentDisplay
        transfer := some ⟨1, []⟩ } := by
  induction bytes generalizing c n received with
  | nil =>
    have hunfilled := h.unfilled
    have hwithin := h.within
    rw [List.length_nil] at hall
    omega
  | cons byte bytes ih =>
    have hsplit : received ++ byte :: bytes = (received ++ [byte]) ++ bytes := by simp
    have hunfilled := h.unfilled
    have hwithin := h.within
    rw [List.length_cons] at hall
    rw [hsplit] at hwhole ⊢
    rw [List.map_cons, run_cons]
    by_cases hfull : received.length + 1 = n
    · obtain ⟨hcs, hdc, hpending, -⟩ := foldl_ramByte_frame c (received ++ [byte])
      by_cases hend : bytes = []
      · subst bytes
        rw [List.append_nil] at hwhole
        rw [List.append_nil, h.complete_last hfull (by simpa [hfull] using hall) byte hwhole]
        rfl
      · have hpos := List.length_pos_iff.mpr hend
        have hstep := h.complete_more hfull (by omega) byte
        have hleft : ((received ++ [byte]).foldl ramByte c).pendingWriteBytes = bytes.length := by
          rw [hpending, List.length_append, List.length_singleton]
          omega
        have hnext : Receiving (c.signal (.byte byte)) (min bytes.length spiChunk) [] := by
          have hcount : c.pendingWriteBytes - n = bytes.length := by omega
          rw [hstep, hcount]
          refine ⟨hcs.trans h.selected, hdc.trans h.data, rfl, ?_, ?_⟩
          · exact lt_min hpos (by decide)
          · exact (min_le_left _ _).trans hleft.ge
        rw [List.foldl_append] at hwhole
        rw [ih hnext, List.nil_append, hstep, foldl_ramByte_transfer, ← List.foldl_append]
        · rw [hstep]
          exact (Nat.zero_add _).trans hleft.symm
        · rw [hstep, List.nil_append, foldl_ramByte_transfer]
          exact hwhole
    · have hstep : c.signal (.byte byte) =
          { c with transfer := some ⟨n, received ++ [byte]⟩ } := h.wait (by omega) byte
      have hnext : Receiving { c with transfer := some ⟨n, received ++ [byte]⟩ } n
          (received ++ [byte]) :=
        ⟨h.selected, h.data, rfl, by rw [List.length_append]; simp; omega, hwithin⟩
      rw [hstep, ih hnext, foldl_ramByte_transfer]
      · rw [List.length_append, List.length_singleton]
        simp only
        omega
      · rw [foldl_ramByte_transfer]
        exact hwhole

/-- A byte that is not the last one changes nothing that is shown. -/
theorem Receiving.advance (h : Receiving c n received)
    (hmore : received.length + 1 < c.pendingWriteBytes) (byte : UInt8) :
    ∃ n' received', Receiving (c.signal (.byte byte)) n' received' ∧
      received.length + 1 + (c.signal (.byte byte)).pendingWriteBytes =
        received'.length + c.pendingWriteBytes ∧
      (c.signal (.byte byte)).framebuffer = c.framebuffer := by
  have hunfilled := h.unfilled
  have hwithin := h.within
  by_cases hfull : received.length + 1 = n
  · obtain ⟨hcs, hdc, hpending, hshown⟩ := foldl_ramByte_frame c (received ++ [byte])
    have hleft : c.pendingWriteBytes - n =
        ((received ++ [byte]).foldl ramByte c).pendingWriteBytes := by
      rw [hpending, List.length_append, List.length_singleton, hfull]
    rw [h.complete_more hfull (by omega) byte]
    refine ⟨_, _, ⟨hcs.trans h.selected, hdc.trans h.data, rfl, ?_, ?_⟩, ?_, hshown⟩
    · have hsome : 0 < c.pendingWriteBytes - n := by omega
      exact lt_min hsome (by decide)
    · exact (min_le_left _ _).trans hleft.le
    · simp only [← hleft, List.length_nil]
      omega
  · have hstep : c.signal (.byte byte) =
        { c with transfer := some ⟨n, received ++ [byte]⟩ } := h.wait (by omega) byte
    rw [hstep]
    have hlen : (received ++ [byte]).length = received.length + 1 := by simp
    exact ⟨n, received ++ [byte], ⟨h.selected, h.data, rfl, by omega, hwithin⟩, by rw [hlen], rfl⟩

/-- Until the last byte of the data nothing that is shown changes. -/
theorem Receiving.unfinished (h : Receiving c n received)
    (hshort : received.length + bytes.length < c.pendingWriteBytes) :
    (c.run (bytes.map .byte)).framebuffer = c.framebuffer := by
  induction bytes generalizing c n received with
  | nil => rfl
  | cons byte bytes ih =>
    rw [List.length_cons] at hshort
    obtain ⟨n', received', hnext, hleft, hshown⟩ := h.advance (by omega) byte
    rw [List.map_cons, run_cons, ih hnext (by omega), hshown]

end Chip

def coordinate (i : ℕ) : Fin 128 := ⟨i % 128, Nat.mod_lt i (by decide)⟩

/-- The place of the cursor for the `k`-th pixel of the whole panel. -/
def cursorAt (verticalIncrement : Bool) (k : ℕ) : Place :=
  let (x, y) := Scan.rowAt width k
  if verticalIncrement then (coordinate y, coordinate x) else (coordinate x, coordinate y)

/-- The place at which the `k`-th pixel is shown. -/
def Panel.target (p : Panel) (k : ℕ) : Place := p.flip (cursorAt p.verticalIncrement k)

/-- The window is the whole panel. -/
def Panel.FullWindow (p : Panel) : Prop := p.cols = .full ∧ p.rows = .full

variable {p : Panel} {c : Chip} {k : ℕ} {pairs : List (UInt8 × UInt8)}

theorem nextPlace_cursorAt (hfull : p.FullWindow) (hk : k + 1 < width * height) :
    p.nextPlace (cursorAt p.verticalIncrement k) = cursorAt p.verticalIncrement (k + 1) := by
  obtain ⟨hcols, hrows⟩ := hfull
  have hlast : ((127 : Fin 128) : ℕ) = 127 := rfl
  have hfirst : ((0 : Fin 128) : ℕ) = 0 := rfl
  have hx : k % 128 < 128 := Nat.mod_lt k (by decide)
  have hy : k / 128 < 128 ∧ (k % 128 + 1 = 128 → k / 128 + 1 < 128) := by
    simp only [width, height] at hk
    omega
  obtain ⟨x', y', hnext, hmoved⟩ : ∃ x' y', Scan.rowAt width (k + 1) = (x', y') ∧
      (x' = k % 128 + 1 ∧ y' = k / 128 ∧ x' < 128 ∨
        k % 128 + 1 = 128 ∧ x' = 0 ∧ y' = k / 128 + 1) := by
    by_cases hrow : k % 128 + 1 < 128
    · exact ⟨_, _, Scan.rowAt_succ hrow, .inl ⟨rfl, rfl, hrow⟩⟩
    · exact ⟨_, _, Scan.rowAt_wrap (by decide) hrow, .inr ⟨by omega, rfl, rfl⟩⟩
  rw [cursorAt, cursorAt, hnext, Scan.rowAt]
  generalize k % 128 = x at hx hy hmoved
  generalize k / 128 = y at hy hmoved
  cases hv : p.verticalIncrement <;>
    simp only [Panel.nextPlace, hv, hcols, hrows, Span.full, Fin.lt_def, coordinate, hlast, width,
      height, if_true, if_false, Bool.false_eq_true] <;>
    split_ifs <;> simp only [Prod.ext_iff, Fin.ext_iff, hfirst] <;> omega

theorem target_injOn (p : Panel) : Set.InjOn p.target (Set.Iio (width * height)) := by
  have hflip : Function.Injective p.flip := by
    intro q r h
    obtain ⟨hx, hy⟩ := Prod.mk.inj h
    refine Prod.ext ?_ ?_
    · split at hx
      · exact Fin.rev_inj.mp hx
      · exact hx
    · split at hy
      · exact Fin.rev_inj.mp hy
      · exact hy
  intro j hj k hk h
  have hplace : cursorAt p.verticalIncrement j = cursorAt p.verticalIncrement k := hflip h
  have hrow : Scan.rowAt width j = Scan.rowAt width k := by
    simp only [Set.mem_Iio, width, height] at hj hk
    cases hv : p.verticalIncrement <;> rw [hv] at hplace <;>
      simp only [cursorAt, Scan.rowAt, Prod.ext_iff, Fin.ext_iff, coordinate, width, height,
        if_true, if_false, Bool.false_eq_true] at hplace ⊢ <;>
      omega
  exact Scan.rowAt_injective width hrow

/-- The bytes of some pixels. -/
def pixelBytes (pairs : List (UInt8 × UInt8)) : List UInt8 := pairs.flatMap fun p => [p.1, p.2]

/-- Whole pixels are written at one place after the other. -/
theorem foldl_pixelBytes (hfull : c.FullWindow) (hpixel : c.pixelByte = none)
    (hat : pairs ≠ [] → (c.nextCol, c.nextRow) = cursorAt c.verticalIncrement k)
    (hk : k + pairs.length ≤ width * height) :
    ((pixelBytes pairs).foldl Chip.ramByte c).pixelByte = none ∧
      ((pixelBytes pairs).foldl Chip.ramByte c).toPanel = { c.toPanel with
        rgba := Scan.fill Bitmap.put c.target c.rgba k (pairs.map fun p => c.shade p.1 p.2) } := by
  induction pairs generalizing c k with
  | nil => exact ⟨hpixel, rfl⟩
  | cons pair pairs ih =>
    obtain ⟨high, low⟩ := pair
    have hplace := hat (List.cons_ne_nil _ _)
    rw [List.length_cons] at hk
    let written : Chip := { c with
      pendingWriteBytes := c.pendingWriteBytes - 1 - 1
      rgba := c.rgba.put (c.target k) (c.shade high low)
      nextCol := (c.nextPlace (cursorAt c.verticalIncrement k)).1
      nextRow := (c.nextPlace (cursorAt c.verticalIncrement k)).2 }
    have htwo : (c.ramByte high).ramByte low = written := by
      rw [Chip.ramByte_pair hpixel, hplace]
      rfl
    have hnext : pairs ≠ [] → (written.nextCol, written.nextRow) =
        cursorAt written.verticalIncrement (k + 1) := by
      intro hne
      have hpos := List.length_pos_iff.mpr hne
      exact nextPlace_cursorAt hfull (by omega)
    obtain ⟨hwhole, hpanel⟩ := ih (c := written) hfull hpixel hnext (by omega)
    have hfold : (pixelBytes ((high, low) :: pairs)).foldl Chip.ramByte c =
        (pixelBytes pairs).foldl Chip.ramByte written := by
      rw [← htwo]
      rfl
    rw [hfold]
    exact ⟨hwhole, hpanel⟩

end Hologotchi.Display
