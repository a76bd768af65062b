import Hologotchi.Display.Drawing
import Hologotchi.Motion.Files

/-! The motion sheet from the file of the base sheet to the panel. -/
namespace Hologotchi.Motion

open Library Library.Fallible Sprite Display
open Png (Zlib)

/-- The cell sizes of the metadata. -/
def cellSizes : SheetMeta := ⟨cell, cell, by decide, by decide⟩

/-- The rows and columns of both sheets. -/
def fourByFour : SheetSpec := ⟨4, 4, by decide, by decide⟩

/-- A cell as it is encoded. -/
def Cell.view (c : Cell) : Sprite.Cell := ⟨cell, cell, c.get⟩

/-- A colour is seen of the pixels inside of a cell. -/
theorem wordAt_congr (c d : Sprite.Cell) (hwidth : c.width = d.width)
    (hheight : c.height = d.height)
    (hpixel : ∀ x < c.width, ∀ y < c.height, c.pixel x y = d.pixel x y)
    (palette : Palette) (alphaThreshold : ℕ) (x y : ℤ) :
    c.wordAt palette alphaThreshold x y = d.wordAt palette alphaThreshold x y := by
  simp only [Cell.wordAt, ← hwidth, ← hheight]
  split
  · rename_i hin
    have hsame := hpixel x.toNat (by omega) y.toNat (by omega)
    have hindex : c.index palette alphaThreshold x.toNat y.toNat =
        d.index palette alphaThreshold x.toNat y.toNat := by
      unfold Sprite.Cell.index Sprite.Cell.visible
      rw [hsame]
    rw [hindex]
  · rfl

/-- From the file of the base sheet to the panel: each cell that is derived is written, read,
encoded and drawn as the palette colours nearest to its pixels, on what the framebuffer has. -/
theorem motion_sheet_shown [R : SpiRuntime] (z : Zlib) (hz : z.Lossless)
    (sourcePath outputPath : String) (source output : Option (List UInt8)) (raw : List UInt8)
    (h : deriveMotionSheetFile z sourcePath outputPath source output false = .ok (some raw))
    (palette : Palette) (alphaThreshold : ℕ) (hne : palette ≠ []) (hlen : palette.length ≤ 128)
    (o : Orientation) (chip : Chip) (hcs : chip.csPin = true) (htransfer : chip.transfer = none)
    (flushes : List Flush) (hearly : ∀ f ∈ flushes, f.Early) :
    ∃ (sheet image : RgbaImage) (crop : SourcePose → Cell) (derived : List Cell)
      (hlength : derived.length = 16),
      (readSheet z sourcePath source = .ok sheet ∧
        (∀ pose, cropCell sheet pose.index = .ok (crop pose)) ∧
        derivedCells crop = .ok derived) ∧
      readSheet z outputPath (some raw) = .ok image ∧
      ∀ i : Fin 16, ∃ sprite,
        (encodeSprite palette alphaThreshold image cellSizes fourByFour i).toSprite =
            some sprite ∧
          ∀ (checks : Bool) (fb : Framebuffer) (dx dy : ℤ),
            (derived.get (i.cast hlength.symm)).view.FitsAt dx dy →
            ∃ fb', blitSprite checks palette sprite dx dy fb = .ok fb' ∧ ∀ x y : Fin 128,
              (chip.run (init o ++ flushes.flatMap Flush.signals ++ flush fb')).framebuffer.look
                  (o.place x y) =
                (((derived.get (i.cast hlength.symm)).view.wordAt palette alphaThreshold (x - dx)
                  (y - dy)).map o.look).getD (o.shade (fb.at x y)) := by
  obtain ⟨sheet, image, hsheet, hderived, hwrite⟩ := exists_of_regenerated h
  obtain ⟨crop, derived, hlength, hcrop, hcells, hbase, himage⟩ := exists_of_derivedSheet hderived
  have hread := Png.readRgbaPng_written hz outputPath hwrite []
  rw [List.append_nil] at hread
  refine ⟨sheet, image, crop, derived, hlength, ⟨hsheet, hcrop, hcells⟩,
    readSheet_eq_ok_iff.mpr hread, fun i => ?_⟩
  have hcell : Motion.cell ≤ 255 := by decide
  have hsame : ∀ x < Motion.cell, ∀ y < Motion.cell,
      (Sprite.cell image cellSizes fourByFour i).pixel x y =
        (derived.get (i.cast hlength.symm)).view.pixel x y := by
    intro x hx y hy
    obtain ⟨c, hc, hlook⟩ := cropCell_ok hbase i.isLt
    rw [himage i] at hc
    cases hc
    exact (hlook x hx y hy).symm
  obtain ⟨sprite, hsprite, hdraws⟩ := encodeCell_draws (Sprite.cell image cellSizes fourByFour i)
    alphaThreshold hcell hcell hne hlen
  refine ⟨sprite, hsprite, fun checks fb dx dy hfits => ?_⟩
  obtain ⟨hinside, hdrawn⟩ := hdraws checks dx dy ⟨hfits.1, hfits.2, hfits.3, hfits.4⟩
  obtain ⟨fb', hblit, hat⟩ := at_blitSprite hinside hdrawn fb
  refine ⟨fb', hblit, fun x y => ?_⟩
  have hshowing := (Chip.showing_init o hcs htransfer).run hearly
  have hword := wordAt_congr (Sprite.cell image cellSizes fourByFour i)
    (derived.get (i.cast hlength.symm)).view rfl rfl hsame palette alphaThreshold (x - dx) (y - dy)
  rw [Chip.run_append, Chip.run_append, (hshowing.done fb').shows x y, hat, hword]
  cases (derived.get (i.cast hlength.symm)).view.wordAt palette alphaThreshold (x - dx) (y - dy) with
  | none => rfl
  | some word => exact shade_rgb565Color o word

theorem motion_sheet_shown_dots : ∃ source raw,
    readSheet dotZlib "base.png" (some source) = .ok dotSheet ∧
    deriveMotionSheetFile dotZlib "base.png" "motion.png" (some source) none false =
      .ok (some raw) ∧
    ∃ (sheet image : RgbaImage) (crop : SourcePose → Cell) (derived : List Cell)
      (hlength : derived.length = 16),
      (readSheet dotZlib "base.png" (some source) = .ok sheet ∧
        (∀ pose, cropCell sheet pose.index = .ok (crop pose)) ∧
        derivedCells crop = .ok derived) ∧
      readSheet dotZlib "motion.png" (some raw) = .ok image ∧
      ∀ i : Fin 16, ∃ sprite,
        (encodeSprite [0x0000, 0xffff] 12 image cellSizes fourByFour i).toSprite = some sprite ∧
          ∀ (checks : Bool) (fb : Framebuffer) (dx dy : ℤ),
            (derived.get (i.cast hlength.symm)).view.FitsAt dx dy →
            ∃ fb', blitSprite checks [0x0000, 0xffff] sprite dx dy fb = .ok fb' ∧
              ∀ x y : Fin 128, (Chip.run (R := handingOver) .chipInit (init .cube ++
                [.failed .blank 4].flatMap Flush.signals ++ flush fb')).framebuffer.look
                  (Orientation.cube.place x y) =
                (((derived.get (i.cast hlength.symm)).view.wordAt [0x0000, 0xffff] 12 (x - dx)
                  (y - dy)).map Orientation.cube.look).getD
                    (Orientation.cube.shade (fb.at x y)) := by
  obtain ⟨source, raw, hread, hfile⟩ := exists_regenerated_dots
  exact ⟨source, raw, hread, hfile, motion_sheet_shown (R := handingOver) dotZlib lossless_dotZlib
    "base.png" "motion.png" (some source) none raw hfile [0x0000, 0xffff] 12 (by decide) (by decide)
    .cube .chipInit rfl rfl [.failed .blank 4] (by decide)⟩

end Hologotchi.Motion
