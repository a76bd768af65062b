import Hologotchi.Display.Pixels

/-! What the panel shows after the driver has flushed its framebuffer. -/
namespace Hologotchi.Display

open Library Sprite

/-! ### Where and how pixels are shown -/

namespace Orientation

/-- The place at which a pixel of the framebuffer is shown. -/
def place (o : Orientation) (x y : Fin 128) : Place :=
  let (col, row) := if o.verticalIncrement then (y, x) else (x, y)
  (if o.mirrorH then col.rev else col, if o.flipV then row.rev else row)

/-- The pixel that two bytes of the framebuffer are shown as. -/
def shade (o : Orientation) (bytes : UInt8 × UInt8) : Rgba :=
  let word := wordOf bytes.1 bytes.2
  rgbaOf (if o.bgr then swapRedBlue word else word)

end Orientation

theorem offset_lt (x y : Fin 128) : (y * width + x : ℕ) * 2 + 1 < fbLen := by
  have hx := x.isLt
  have hy := y.isLt
  simp only [fbLen, width, height]
  omega

/-- The two bytes of a pixel. -/
def Framebuffer.at (fb : Framebuffer) (x y : Fin 128) : UInt8 × UInt8 :=
  (fb.get ⟨(y * width + x) * 2, Nat.lt_of_succ_lt (offset_lt x y)⟩,
    fb.get ⟨(y * width + x) * 2 + 1, offset_lt x y⟩)

/-- The panel shows the framebuffer. -/
def Panel.Shows (p : Panel) (o : Orientation) (fb : Framebuffer) : Prop :=
  ∀ x y, p.framebuffer.look (o.place x y) = o.shade (fb.at x y)

/-- The panel is mapped as the orientation says. -/
def Panel.Oriented (p : Panel) (o : Orientation) : Prop :=
  p.verticalIncrement = o.verticalIncrement ∧ p.mirrorH = o.mirrorH ∧ p.flipV = o.flipV ∧
    p.bgr = o.bgr

variable {o : Orientation} {p : Panel} {c : Chip} {fb : Framebuffer} {k : ℕ}

theorem Panel.Oriented.target_eq (h : p.Oriented o) (x y : Fin 128) :
    p.target (y * width + x) = o.place x y := by
  obtain ⟨hv, hm, hf, -⟩ := h
  have hrow : Scan.rowAt width (y * width + x) = ((x : ℕ), (y : ℕ)) := Scan.rowAt_mul_add x.isLt
  have hx : coordinate x = x := Fin.ext (Nat.mod_eq_of_lt x.isLt)
  have hy : coordinate y = y := Fin.ext (Nat.mod_eq_of_lt y.isLt)
  simp only [Panel.target, Panel.flip, cursorAt, hrow, hv, hm, hf, Orientation.place, width, height,
    hx, hy]

theorem Panel.Oriented.shade_eq (h : p.Oriented o) (bytes : UInt8 × UInt8) :
    p.shade bytes.1 bytes.2 = o.shade bytes := by
  rw [Panel.shade, Orientation.shade, h.2.2.2]

/-! ### A flush -/

/-- Bytes, two at a time. -/
def pairUp : List UInt8 → List (UInt8 × UInt8)
  | high :: low :: bytes => (high, low) :: pairUp bytes
  | _ => []

theorem pixelBytes_pairUp {bytes : List UInt8} (heven : bytes.length % 2 = 0) :
    pixelBytes (pairUp bytes) = bytes := by
  fun_induction pairUp bytes with
  | case1 high low bytes ih =>
    have hrest : bytes.length % 2 = 0 := by simp only [List.length_cons] at heven; omega
    rw [pixelBytes, List.flatMap_cons, ← pixelBytes, ih hrest]
    rfl
  | case2 bytes hshort =>
    match bytes with
    | [] => rfl
    | [byte] => simp at heven
    | high :: low :: bytes => exact absurd rfl (hshort high low bytes)

theorem length_pairUp (bytes : List UInt8) : (pairUp bytes).length = bytes.length / 2 := by
  fun_induction pairUp bytes with
  | case1 high low bytes ih => simp only [List.length_cons, ih]; omega
  | case2 bytes hshort =>
    match bytes with
    | [] => rfl
    | [byte] => simp
    | high :: low :: bytes => exact absurd rfl (hshort high low bytes)

theorem getElem?_pairUp {bytes : List UInt8} (hk : 2 * k + 1 < bytes.length) :
    (pairUp bytes)[k]? = some (bytes[2 * k], bytes[2 * k + 1]) := by
  fun_induction pairUp bytes generalizing k with
  | case1 high low bytes ih =>
    cases k with
    | zero => rfl
    | succ k =>
      have hrest : 2 * k + 1 < bytes.length := by simp only [List.length_cons] at hk; omega
      exact ih hrest
  | case2 bytes hshort =>
    match bytes with
    | [] => simp at hk
    | [byte] => simp at hk
    | high :: low :: bytes => exact absurd rfl (hshort high low bytes)

theorem getElem?_pairs (fb : Framebuffer) (x y : Fin 128) :
    (pairUp fb.toList)[(y * width + x : ℕ)]? = some (fb.at x y) := by
  have hlt := offset_lt x y
  have hbytes : 2 * (y * width + x : ℕ) + 1 < fb.toList.length := by
    rw [Vector.length_toList]
    omega
  rw [getElem?_pairUp hbytes]
  simp only [Vector.getElem_toList, Nat.mul_comm 2]
  rfl

/-- A panel after a framebuffer has been written to all of it. -/
def Panel.paint (p : Panel) (fb : Framebuffer) : Panel :=
  presentDisplay { p with
    cols := .full
    rows := .full
    rgba := Scan.fill Bitmap.put p.target p.rgba 0
      ((pairUp fb.toList).map fun bytes => p.shade bytes.1 bytes.2) }

theorem paint_eq (h : p.FullWindow) (fb : Framebuffer) : p.paint fb = Panel.presentDisplay { p with
    rgba := Scan.fill Bitmap.put p.target p.rgba 0
      ((pairUp fb.toList).map fun bytes => p.shade bytes.1 bytes.2) } := by
  cases p
  obtain ⟨rfl, rfl⟩ := h
  rfl

/-- The command and the bytes of a framebuffer, up to which nothing is shown. -/
def pictureSignals (fb : Framebuffer) : List Signal :=
  .byte cmdWriteRam :: .dc true :: fb.toList.map .byte

theorem flush_eq (fb : Framebuffer) : flush fb = address ++ pictureSignals fb ++ [.cs true] := by
  simp [flush, pictureSignals]

theorem length_pictureSignals (fb : Framebuffer) : (pictureSignals fb).length = fbLen + 2 := by
  rw [pictureSignals, List.length_cons, List.length_cons, List.length_map, Vector.length_toList]

theorem length_flush (fb : Framebuffer) : (flush fb).length = address.length + (fbLen + 2) + 1 := by
  rw [flush_eq, List.length_append, List.length_append, length_pictureSignals]
  rfl

namespace Chip

variable [SpiRuntime]

theorem Attentive.set_full_window (h : Attentive c) :
    Attentive (c.run setFullWindow) ∧
      (c.run setFullWindow).toPanel = { c.toPanel with cols := .full, rows := .full } := by
  have hcolumn : [0x00, UInt8.ofNat (width - 1)].length = argCountForCmd cmdSetColumn := rfl
  have hrow : [0x00, UInt8.ofNat (height - 1)].length = argCountForCmd cmdSetRow := rfl
  obtain ⟨hcols, hset⟩ := h.cmd (by decide) hcolumn
  obtain ⟨hrows, hboth⟩ := hcols.cmd (by decide) hrow
  rw [setFullWindow, run_append]
  refine ⟨hrows, hboth.trans ?_⟩
  rw [hset]
  rfl

/-- The command that pixel data follows. -/
theorem Listening.write_ram (h : Listening c) (hdc : c.dcPin = false) :
    c.signal (.byte cmdWriteRam) = { c with
      currentCmd := cmdWriteRam
      argsExpected := 0
      args := []
      nextCol := c.cols.first
      nextRow := c.rows.first
      pendingWriteBytes := c.cols.size * c.rows.size * 2
      pixelByte := none
      transfer := some ⟨1, []⟩ } := by
  have hpanel : c.toPanel.apply cmdWriteRam [] = c.toPanel := rfl
  have hargs : argCountForCmd cmdWriteRam = 0 := rfl
  simp [h.byte, spiDone, hdc, handleCommandByte, hargs, applyCurrentCommand, beginWriteRam, hpanel,
    startNextSpiRead, h.selected]

/-- On the full window it asks for as many bytes as a framebuffer has. -/
theorem Listening.begin_data (h : Listening c) (hdc : c.dcPin = false) (hfull : c.FullWindow) :
    (c.signal (.byte cmdWriteRam)).signal (.dc true) = { c with
      currentCmd := cmdWriteRam
      argsExpected := 0
      args := []
      nextCol := c.cols.first
      nextRow := c.rows.first
      pendingWriteBytes := fbLen
      pixelByte := none
      transfer := some ⟨1, []⟩
      dcPin := true } := by
  have hsize : c.cols.size * c.rows.size * 2 = fbLen := by
    rw [hfull.1, hfull.2]
    rfl
  rw [h.write_ram hdc, hsize]
  rfl

theorem Listening.receiving (h : Listening c) (hdc : c.dcPin = false) (hfull : c.FullWindow) :
    Receiving ((c.signal (.byte cmdWriteRam)).signal (.dc true)) 1 [] := by
  rw [h.begin_data hdc hfull]
  exact ⟨h.selected, rfl, rfl, Nat.zero_lt_one, show 1 ≤ fbLen by decide⟩

/-- The bytes of a framebuffer, after that command, are shown on the whole panel. -/
theorem Listening.picture (h : Listening c) (hdc : c.dcPin = false) (hfull : c.FullWindow)
    (fb : Framebuffer) :
    Listening (c.run (pictureSignals fb)) ∧
      (c.run (pictureSignals fb)).toPanel = c.toPanel.paint fb := by
  have hlen : fb.toList.length = fbLen := Vector.length_toList
  have hbytes : pixelBytes (pairUp fb.toList) = fb.toList := by
    apply pixelBytes_pairUp
    rw [hlen]
    rfl
  have hready := h.begin_data hdc hfull
  have hreceiving := h.receiving hdc hfull
  rw [pictureSignals, run_cons, run_cons]
  generalize (c.signal (.byte cmdWriteRam)).signal (.dc true) = ready at hready hreceiving ⊢
  have hpanel : ready.toPanel = c.toPanel := by rw [hready]
  have hpending : ready.pendingWriteBytes = fbLen := by rw [hready]
  have horigin : (ready.nextCol, ready.nextRow) = cursorAt ready.verticalIncrement 0 := by
    rw [hready]
    simp only [hfull.1, hfull.2]
    cases c.verticalIncrement <;> rfl
  have hwindow : ready.FullWindow := by rwa [hpanel]
  have hfit : 0 + (pairUp fb.toList).length ≤ width * height := by
    rw [length_pairUp, hlen]
    decide
  obtain ⟨hwhole, hpicture⟩ := foldl_pixelBytes hwindow (by rw [hready]) (fun _ => horigin) hfit
  obtain ⟨hcs, -, hleft, -⟩ := foldl_ramByte_frame ready fb.toList
  rw [hbytes] at hwhole hpicture
  rw [hlen, hpending, Nat.sub_self] at hleft
  rw [hreceiving.stream ((Nat.zero_add _).trans (hlen.trans hpending.symm)) hwhole]
  refine ⟨⟨hcs.trans hreceiving.selected, rfl, hleft⟩, ?_⟩
  rw [← hpanel, paint_eq hwindow]
  exact congrArg Panel.presentDisplay hpicture

/-- Until the last one of them the panel shows what it did. -/
theorem Listening.unfinished (h : Listening c) (hdc : c.dcPin = false) (hfull : c.FullWindow)
    {n : ℕ} (hn : n < (pictureSignals fb).length) :
    (c.run ((pictureSignals fb).take n)).framebuffer = c.framebuffer := by
  match n with
  | 0 => rfl
  | 1 =>
    change (c.signal (.byte cmdWriteRam)).framebuffer = _
    rw [h.write_ram hdc]
  | n + 2 =>
    have hready := h.begin_data hdc hfull
    have hreceiving := h.receiving hdc hfull
    have hpending : ((c.signal (.byte cmdWriteRam)).signal (.dc true)).pendingWriteBytes =
        fbLen := by rw [hready]
    rw [length_pictureSignals] at hn
    have hshort : ([] : List UInt8).length + (fb.toList.take n).length <
        ((c.signal (.byte cmdWriteRam)).signal (.dc true)).pendingWriteBytes := by
      rw [hpending, List.length_take, List.length_nil, Vector.length_toList]
      omega
    have hsame := hreceiving.unfinished hshort
    rw [pictureSignals, List.take_succ_cons, List.take_succ_cons, ← List.map_take, run_cons,
      run_cons, hsame, hready]

theorem Attentive.addressed (h : Attentive c) : Listening (c.run address) ∧
    (c.run address).dcPin = false ∧
    (c.run address).toPanel = { c.toPanel with cols := .full, rows := .full } := by
  obtain ⟨hready, hwindow⟩ := h.set_full_window
  obtain ⟨hselected, hsame⟩ := hready.select
  rw [address, run_append]
  exact ⟨hselected.dc false, rfl, hsame.trans hwindow⟩

/-- A framebuffer whose last byte has been sent is shown, whatever the panel showed before. -/
theorem Attentive.sent (h : Attentive c) (fb : Framebuffer) :
    Listening (c.run (address ++ pictureSignals fb)) ∧
      (c.run (address ++ pictureSignals fb)).toPanel = c.toPanel.paint fb := by
  obtain ⟨hlisten, hdc, hpanel⟩ := h.addressed
  have hfull : (c.run address).FullWindow := by
    rw [hpanel]
    exact ⟨rfl, rfl⟩
  obtain ⟨hdone, hpicture⟩ := hlisten.picture hdc hfull fb
  have hpaint : (c.run address).toPanel.paint fb = c.toPanel.paint fb := by
    rw [hpanel]
    rfl
  rw [run_append]
  exact ⟨hdone, hpicture.trans hpaint⟩

theorem Attentive.flush (h : Attentive c) (fb : Framebuffer) :
    Attentive (c.run (flush fb)) ∧ (c.run (flush fb)).toPanel = c.toPanel.paint fb := by
  obtain ⟨hdone, hpaint⟩ := h.sent fb
  rw [flush_eq, run_append, run_cons, run_nil, hdone.release]
  exact ⟨⟨hdone.idle, .inl ⟨rfl, rfl⟩⟩, hpaint⟩

end Chip

end Hologotchi.Display
