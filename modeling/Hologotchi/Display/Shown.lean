import Hologotchi.Display.Flush

/-! What the panel shows in a run of the driver. -/
namespace Hologotchi.Display

open Library Sprite

variable {o : Orientation} {p : Panel} {c : Chip} {fb : Framebuffer}

theorem look_paint (h : p.Oriented o) (fb : Framebuffer) (x y : Fin 128) :
    (p.paint fb).rgba.look (o.place x y) = o.shade (fb.at x y) := by
  have hpair := getElem?_pairs fb x y
  obtain ⟨hlt, hat⟩ := List.getElem?_eq_some_iff.mp hpair
  have hlen : (pairUp fb.toList).length = width * height := by
    rw [length_pairUp, Vector.length_toList]
    rfl
  let shades := (pairUp fb.toList).map fun bytes => p.shade bytes.1 bytes.2
  have hinj : Set.InjOn p.target (Set.Iio (0 + shades.length)) := by
    rw [Nat.zero_add, List.length_map, hlen]
    exact target_injOn p
  have hi : (y * width + x : ℕ) < shades.length := by rwa [List.length_map]
  have hfill := Scan.get_fill (s := p.rgba) look_put hinj hi
  rw [Nat.zero_add, h.target_eq, List.getElem_map, hat, h.shade_eq] at hfill
  rw [Panel.paint, Panel.presentDisplay]
  split <;> exact hfill

theorem paint_on (h : p.displayOn = true) (fb : Framebuffer) :
    (p.paint fb).framebuffer = (p.paint fb).rgba ∧ (p.paint fb).displayOn = true := by
  rw [Panel.paint, Panel.presentDisplay, if_pos h]
  exact ⟨rfl, h⟩

theorem paint_oriented (h : p.Oriented o) (fb : Framebuffer) : (p.paint fb).Oriented o := by
  rw [Panel.paint, Panel.presentDisplay]
  split <;> exact h

namespace Chip

/-- In the middle of nothing, and showing a framebuffer. -/
structure Showing (c : Chip) (o : Orientation) (fb : Framebuffer) : Prop where
  attentive : Attentive c
  on : c.displayOn = true
  oriented : c.Oriented o
  shows : c.Shows o fb

theorem configure_args (o : Orientation) :
    ∀ k ∈ configure o, k.1 ≠ cmdWriteRam ∧ k.2.length = argCountForCmd k.1 := by
  obtain ⟨_ | _, _ | _, _ | _, _ | _⟩ := o <;> decide

theorem foldl_configure (o : Orientation) (p : Panel) :
    (configure o).foldl (fun p k => p.apply k.1 k.2) p = { p with
      framebuffer := .blank
      displayOn := false
      verticalIncrement := o.verticalIncrement
      mirrorH := o.mirrorH
      flipV := o.flipV
      bgr := o.bgr } := by
  obtain ⟨_ | _, _ | _, _ | _, _ | _⟩ := o <;> rfl

/-- The window does not matter to what is shown. -/
theorem Showing.rewindow {d : Chip} (h : Showing c o fb) (cols rows : Span) (hd : Attentive d)
    (hpanel : d.toPanel = { c.toPanel with cols := cols, rows := rows }) : Showing d o fb := by
  refine ⟨hd, ?_, ?_, ?_⟩
  · rw [hpanel]
    exact h.on
  · rw [hpanel]
    exact h.oriented
  · intro x y
    rw [hpanel]
    exact h.shows x y

variable [R : SpiRuntime]

theorem run_reset (c : Chip) : c.run reset = { c.resetPanel with rstPin := true } := by
  simp [reset, signal, resetPanel]

/-- Whatever the chip was left with, `init` leaves it showing black. -/
theorem showing_init (o : Orientation) (hcs : c.csPin = true) (htransfer : c.transfer = none) :
    Showing (c.run (init o)) o .blank := by
  have hreset : Attentive (c.run reset) := by
    rw [run_reset]
    exact ⟨rfl, .inl ⟨hcs, htransfer⟩⟩
  obtain ⟨hready, hpanel⟩ := hreset.cmds (configure_args o)
  rw [foldl_configure] at hpanel
  generalize hset : (c.run reset).run ((configure o).flatMap fun k => cmd k.1 k.2) = set at *
  have horiented : set.Oriented o := by
    rw [hpanel]
    exact ⟨rfl, rfl, rfl, rfl⟩
  obtain ⟨hflushed, hpaint⟩ := hready.flush .blank
  have hargs : ([] : List UInt8).length = argCountForCmd cmdDisplayOn := rfl
  obtain ⟨hon, hshown⟩ := hflushed.cmd (by decide) hargs
  have hpresented : ∀ p : Panel, p.apply cmdDisplayOn [] = { p with
      framebuffer := p.rgba, displayOn := true } := fun p => rfl
  rw [hpaint, hpresented] at hshown
  rw [init, run_append, run_append, run_append, hset]
  refine ⟨hon, ?_, ?_, ?_⟩
  · rw [hshown]
  · rw [hshown]
    exact paint_oriented horiented _
  · intro x y
    rw [hshown]
    exact look_paint horiented _ x y

/-- A flush that ends shows its framebuffer. -/
theorem Showing.done (h : Showing c o fb) (next : Framebuffer) :
    Showing (c.run (flush next)) o next := by
  obtain ⟨hready, hpaint⟩ := h.attentive.flush next
  obtain ⟨hshown, hon⟩ := paint_on h.on next
  refine ⟨hready, ?_, ?_, ?_⟩
  · rw [hpaint]
    exact hon
  · rw [hpaint]
    exact paint_oriented h.oriented next
  · intro x y
    rw [hpaint, hshown]
    exact look_paint h.oriented next x y

/-- A command that sets the window changes nothing that is shown, even if it is cut short. -/
theorem Showing.set_window {command first last : UInt8} (h : Showing c o fb)
    (hcmd : command = cmdSetColumn ∨ command = cmdSetRow) (n : ℕ) :
    Showing (c.run ((cmd command [first, last]).take n)) o fb := by
  have hargs : command ≠ cmdWriteRam ∧ [first, last].length = argCountForCmd command := by
    rcases hcmd with rfl | rfl <;> exact ⟨by decide, rfl⟩
  obtain ⟨hcut, hsame | happlied⟩ := h.attentive.cut_short hargs.1 hargs.2 n
  · exact h.rewindow c.cols c.rows hcut hsame
  · rcases hcmd with rfl | rfl
    · exact h.rewindow (normalizeWindow (clampU8 first) (clampU8 last)) c.rows
        hcut happlied
    · exact h.rewindow c.cols (normalizeWindow (clampU8 first) (clampU8 last))
        hcut happlied

theorem Showing.begin (h : Showing c o fb) (n : ℕ) :
    Showing (c.run ([Signal.cs false, .dc false].take n)) o fb := by
  obtain ⟨hselected, hpanel⟩ := h.attentive.select
  match n with
  | 0 => exact h
  | 1 => exact h.rewindow c.cols c.rows hselected.attentive hpanel
  | n + 2 =>
    have hboth : [Signal.cs false, .dc false].take (n + 2) = [.cs false, .dc false] := by simp
    rw [hboth]
    exact h.rewindow c.cols c.rows (hselected.dc false).attentive hpanel

/-- A flush that fails before the command for its pixel data leaves the picture as it is. -/
theorem Showing.failed (h : Showing c o fb) (next : Framebuffer) {sent : ℕ}
    (hearly : sent ≤ address.length) : Showing (c.run ((flush next).take sent)) o fb := by
  rw [flush, List.take_append_of_le_length hearly, address, setFullWindow, List.take_append,
    List.take_append, run_append, run_append]
  exact ((h.set_window (.inl rfl) _).set_window (.inr rfl) _).begin _

/-- One that fails just behind it leaves the chip waiting for a whole picture, so that it takes
what is sent next for pixels. -/
theorem Showing.failed_late (h : Showing c o fb) (next : Framebuffer) :
    (c.run ((flush next).take (address.length + 1))).pendingWriteBytes = fbLen := by
  obtain ⟨hlisten, hdc, hpanel⟩ := h.attentive.addressed
  have htake : (flush next).take (address.length + 1) = address ++ [.byte cmdWriteRam] := by
    rw [flush, List.take_length_add_append]
    rfl
  rw [htake, run_append, run_cons, run_nil, hlisten.write_ram hdc, hpanel]
  rfl

/-- A flush that is under way shows nothing of its framebuffer before all of it has been sent. -/
theorem Showing.under_way (h : Showing c o fb) (next : Framebuffer) (n : ℕ) :
    (c.run ((flush next).take n)).Shows o
      (if n + 1 < (flush next).length then fb else next) := by
  have hlen := length_flush next
  have hpicture := length_pictureSignals next
  split_ifs with hn
  · have htake : (flush next).take n =
        address.take n ++ (pictureSignals next).take (n - address.length) := by
      rw [flush_eq, List.take_append_of_le_length, List.take_append]
      rw [List.length_append, hpicture]
      omega
    rw [htake, run_append]
    by_cases haddress : n ≤ address.length
    · rw [Nat.sub_eq_zero_of_le haddress, List.take_zero, run_nil,
        ← List.take_append_of_le_length haddress, ← flush]
      exact (h.failed next haddress).shows
    · obtain ⟨hlisten, hdc, hpanel⟩ := h.attentive.addressed
      have hfull : (c.run address).FullWindow := by
        rw [hpanel]
        exact ⟨rfl, rfl⟩
      have hshort : n - address.length < (pictureSignals next).length := by omega
      have hsame := hlisten.unfinished hdc hfull hshort
      rw [List.take_of_length_le (by omega : address.length ≤ n)]
      intro x y
      rw [hsame, hpanel]
      exact h.shows x y
  · by_cases hall : n + 1 = (flush next).length
    · obtain ⟨-, hpaint⟩ := h.attentive.sent next
      have htake : (flush next).take n = address ++ pictureSignals next := by
        rw [flush_eq]
        apply List.take_left'
        rw [List.length_append, hpicture]
        omega
      intro x y
      rw [htake, hpaint, (paint_on h.on next).1]
      exact look_paint h.oriented next x y
    · rw [List.take_of_length_le (by omega : (flush next).length ≤ n)]
      exact (h.done next).shows

end Chip

/-- The framebuffer of the last flush that was not cut short. -/
def lastDone : Framebuffer → List Flush → Framebuffer
  | fb, [] => fb
  | _, .done next :: flushes => lastDone next flushes
  | fb, .failed _ _ :: flushes => lastDone fb flushes

section Runs

variable [R : SpiRuntime] {flushes : List Flush}

theorem Chip.Showing.run (h : Showing c o fb) (hearly : ∀ f ∈ flushes, f.Early) :
    Showing (c.run (flushes.flatMap Flush.signals)) o (lastDone fb flushes) := by
  induction flushes generalizing c fb with
  | nil => exact h
  | cons attempt flushes ih =>
    obtain ⟨hfirst, hrest⟩ := List.forall_mem_cons.mp hearly
    rw [List.flatMap_cons, run_append]
    cases attempt with
    | done next => exact ih (h.done next) hrest
    | failed next sent => exact ih (h.failed next hfirst) hrest

/-- What a run of the driver sends up to a signal of its last flush. -/
def signalsUpTo (o : Orientation) (flushes : List Flush) (next : Framebuffer) (n : ℕ) :
    List Signal :=
  init o ++ flushes.flatMap Flush.signals ++ (flush next).take n

/-- The last framebuffer that has been sent to its end by then. -/
def lastSent (flushes : List Flush) (next : Framebuffer) (n : ℕ) : Framebuffer :=
  if n + 1 < (flush next).length then lastDone .blank flushes else next

/-- From `init` on the panel shows whole framebuffers only: at every signal of a flush, where it may
also end for good, it shows the last one that was sent to its end, whichever flushes failed early
before. -/
theorem shows_whole_framebuffers (o : Orientation) (hcs : c.csPin = true)
    (htransfer : c.transfer = none) (flushes : List Flush) (hearly : ∀ f ∈ flushes, f.Early)
    (next : Framebuffer) (n : ℕ) :
    (c.run (signalsUpTo o flushes next n)).Shows o (lastSent flushes next n) := by
  have hshowing := (Chip.showing_init o hcs htransfer).run hearly
  rw [signalsUpTo, lastSent, Chip.run_append, Chip.run_append]
  exact hshowing.under_way next n

/-- A panel that is mapped for the cube shows the mirrored picture of one that is looked at directly,
and one that is mounted sideways the picture of the cube's turned clockwise. -/
theorem shows_oriented {c d e : Chip} (hc : c.csPin = true ∧ c.transfer = none)
    (hd : d.csPin = true ∧ d.transfer = none) (he : e.csPin = true ∧ e.transfer = none)
    (flushes : List Flush) (hearly : ∀ f ∈ flushes, f.Early) (next : Framebuffer) (n : ℕ)
    (col row : Fin 128) :
    (d.run (signalsUpTo .cube flushes next n)).framebuffer.look (col, row) =
        (c.run (signalsUpTo .panel flushes next n)).framebuffer.look (col.rev, row) ∧
      (e.run (signalsUpTo .cubeRotatedCw flushes next n)).framebuffer.look (row.rev, col) =
        (d.run (signalsUpTo .cube flushes next n)).framebuffer.look (col, row) := by
  have hpanel := shows_whole_framebuffers .panel hc.1 hc.2 flushes hearly next n col.rev row.rev
  have hcube := shows_whole_framebuffers .cube hd.1 hd.2 flushes hearly next n col.rev row.rev
  have hturned := shows_whole_framebuffers .cubeRotatedCw he.1 he.2 flushes hearly next n col.rev
    row.rev
  have hp : Orientation.panel.place col.rev row.rev = (col.rev, row) :=
    Prod.ext rfl (Fin.rev_rev row)
  have hq : Orientation.cube.place col.rev row.rev = (col, row) :=
    Prod.ext (Fin.rev_rev col) (Fin.rev_rev row)
  have hr : Orientation.cubeRotatedCw.place col.rev row.rev = (row.rev, col) :=
    Prod.ext rfl (Fin.rev_rev col)
  rw [hp] at hpanel
  rw [hq] at hcube
  rw [hr] at hturned
  exact ⟨hcube.trans hpanel.symm, hturned.trans hcube.symm⟩

end Runs

/-- A runtime that hands over what a read has when it is stopped. -/
@[reducible] def handingOver : SpiRuntime where
  byte t value :=
    if t.received.length + 1 < t.count then .waiting { t with received := t.received ++ [value] }
    else .done (t.received ++ [value])
  stop t := t.received
  byte_more := by
    intro count received value hmore
    simp [hmore]
  byte_last := by
    intro count received value hlast
    simp [hlast]
  stop_unread _ := rfl

/-- After a flush that failed at its fourth signal, another one under way. -/
theorem shows_whole_framebuffers_cube :
    (Chip.run (R := handingOver) .chipInit (signalsUpTo .cube [.failed .blank 4]
      (.replicate fbLen 7) 20)).Shows .cube .blank := by
  have hshows := shows_whole_framebuffers (R := handingOver) .cube (c := Chip.chipInit) rfl rfl
    [.failed .blank 4] (by decide) (.replicate fbLen 7) 20
  have hlong : 20 + 1 < (flush (.replicate fbLen 7)).length := by
    rw [length_flush]
    decide
  rwa [lastSent, if_pos hlong] at hshows

theorem shows_oriented_start :
    (Chip.run (R := handingOver) .chipInit
        (signalsUpTo .cube [.failed .blank 4] (.replicate fbLen 7) 40000)).framebuffer.look (3, 5) =
      (Chip.run (R := handingOver) .chipInit
        (signalsUpTo .panel [.failed .blank 4] (.replicate fbLen 7) 40000)).framebuffer.look
          (Fin.rev 3, 5) :=
  (shows_oriented (R := handingOver) (c := Chip.chipInit) (d := Chip.chipInit) (e := Chip.chipInit)
    ⟨rfl, rfl⟩ ⟨rfl, rfl⟩ ⟨rfl, rfl⟩ [.failed .blank 4] (by decide) (.replicate fbLen 7) 40000 3
      5).1

end Hologotchi.Display
