import Hologotchi.Display.Shown
import Hologotchi.Sprite.Placing
import Mathlib.Tactic.IntervalCases

/-! Sprites on the panel. -/
namespace Hologotchi.Display

open Library Rust Sprite

/-- How a word of the palette looks on the panel. -/
def Orientation.look (o : Orientation) (word : UInt16) : Rgba :=
  rgbaOf (if o.bgr then swapRedBlue word else word)

theorem toNat_wordOf (high low : UInt8) :
    (wordOf high low).toNat = high.toNat * 256 + low.toNat := by
  have hhigh := high.toNat_lt
  have hshift : (high.toUInt16 <<< 8).toNat = high.toNat <<< 8 := by
    simp [Nat.shiftLeft_eq]
    omega
  rw [wordOf, UInt16.toNat_or, hshift, UInt8.toNat_toUInt16,
    ← Nat.shiftLeft_add_eq_or_of_lt low.toNat_lt, Nat.shiftLeft_eq]

theorem wordOf_bytes (word : UInt16) : wordOf (word >>> 8).toUInt8 word.toUInt8 = word := by
  have hword := word.toNat_lt
  apply UInt16.toNat_inj.mp
  rw [toNat_wordOf]
  simp [Nat.shiftRight_eq_div_pow]
  omega

/-- The three parts of a word make it up again. -/
theorem word_rgb565Color (word : UInt16) : (rgb565Color word).r <<< 11 |||
    (rgb565Color word).g <<< 5 ||| (rgb565Color word).b = word := by
  obtain ⟨b⟩ := word
  apply UInt16.toBitVec_inj.mp
  simp only [rgb565Color, UInt16.toBitVec_or, UInt16.toBitVec_shiftLeft]
  ext i hi
  simp
  interval_cases i <;> simp

theorem shade_rgb565Color (o : Orientation) (word : UInt16) :
    o.shade (rgb565Bytes (rgb565Color word)) = o.look word := by
  simp only [Orientation.shade, rgb565Bytes, word_rgb565Color, wordOf_bytes, Orientation.look]

namespace Framebuffer

variable {fb : Framebuffer} {pixels : List Pixel} {x y : Fin 128}

/-- At a place of the panel. -/
def Covers (p : Pixel) (x y : Fin 128) : Prop := p.x = x ∧ p.y = y

instance (p : Pixel) (x y : Fin 128) : Decidable (Covers p x y) := instDecidableAnd

theorem at_set (fb : Framebuffer) {n : ℕ} (hn : n * 2 + 1 < fbLen) (bytes : UInt8 × UInt8)
    (x y : Fin 128) :
    Framebuffer.at ((fb.set (n * 2) bytes.1 (Nat.lt_of_succ_lt hn)).set (n * 2 + 1) bytes.2 hn) x y =
      if n = y * width + x then bytes else fb.at x y := by
  have hlt := offset_lt x y
  have hfirst : ∀ v : Framebuffer, (v.at x y).1 = v[(y * width + x : ℕ) * 2] := fun v => rfl
  have hsecond : ∀ v : Framebuffer, (v.at x y).2 = v[(y * width + x : ℕ) * 2 + 1] := fun v => rfl
  by_cases hsame : n = y * width + x
  · rw [if_pos hsame]
    refine Prod.ext ?_ ?_
    · rw [hfirst, Vector.getElem_set_ne _ _ (by omega)]
      simp only [hsame, Vector.getElem_set_self]
    · rw [hsecond]
      simp only [hsame, Vector.getElem_set_self]
  · rw [if_neg hsame]
    refine Prod.ext ?_ ?_
    · rw [hfirst, hfirst, Vector.getElem_set_ne _ _ (by omega), Vector.getElem_set_ne _ _ (by omega)]
    · rw [hsecond, hsecond, Vector.getElem_set_ne _ _ (by omega),
        Vector.getElem_set_ne _ _ (by omega)]

theorem at_drawPixel (fb : Framebuffer) (p : Pixel) (x y : Fin 128) :
    (fb.drawPixel p).at x y = if Covers p x y then rgb565Bytes p.color else fb.at x y := by
  have hx := x.isLt
  have hy := y.isLt
  rw [drawPixel]
  by_cases hon : OnPanel p.x p.y
  · have hiff : p.y.toNat * width + p.x.toNat = y * width + x ↔ Covers p x y := by
      simp only [OnPanel, width, height, Covers] at hon ⊢
      omega
    rw [dif_pos hon, at_set]
    simp only [hiff]
  · have hnot : ¬ Covers p x y := by
      rintro ⟨hpx, hpy⟩
      apply hon
      simp only [OnPanel, width, height, hpx, hpy]
      omega
    rw [dif_neg hon, if_neg hnot]

/-- What was drawn last at a place is there, and everything else is as it was. -/
theorem at_drawIter (fb : Framebuffer) (pixels : List Pixel) (x y : Fin 128) :
    (fb.drawIter pixels).at x y =
      ((pixels.filter fun p => Covers p x y).getLast?.map fun p => rgb565Bytes p.color).getD
        (fb.at x y) := by
  induction pixels using List.reverseRecOn with
  | nil => rfl
  | append_singleton pixels p ih =>
    rw [drawIter, List.foldl_append, List.foldl_cons, List.foldl_nil, at_drawPixel, ← drawIter, ih,
      List.filter_append]
    by_cases hcovers : Covers p x y
    · simp [hcovers]
    · simp [hcovers]

/-- Pixels that have the colour of their place, on what was there. -/
theorem at_drawIter_words (word : ℤ → ℤ → Option UInt16) (fb : Framebuffer)
    (hcolor : ∀ p ∈ pixels, ∃ w, word p.x p.y = some w ∧ p.color = rgb565Color w)
    (hnone : (∀ p ∈ pixels, ¬ Covers p x y) → word x y = none) :
    (fb.drawIter pixels).at x y =
      ((word x y).map fun w => rgb565Bytes (rgb565Color w)).getD (fb.at x y) := by
  rw [at_drawIter]
  cases hlast : (pixels.filter fun p => Covers p x y).getLast? with
  | none =>
    have hfree := List.filter_eq_nil_iff.mp (List.getLast?_eq_none_iff.mp hlast)
    rw [hnone fun p hp => by simpa using hfree p hp]
    rfl
  | some p =>
    obtain ⟨hmem, hcovers⟩ := List.mem_filter.mp (List.mem_of_getLast? hlast)
    obtain ⟨hx, hy⟩ := of_decide_eq_true hcovers
    obtain ⟨w, hw, hp⟩ := hcolor p hmem
    rw [hx, hy] at hw
    rw [hw, Option.map_some, Option.map_some, Option.getD_some, Option.getD_some, hp]

end Framebuffer

/-- `blit_sprite`. -/
def blitSprite (checks : Bool) (palette : Palette) (sprite : Sprite) (x y : ℤ) (fb : Framebuffer) :
    Except Panic Framebuffer := do
  .ok (fb.drawIter (← blitPixels checks palette sprite x y))

theorem blitSprite_ok {sprite : Sprite} {x y : ℤ} (checks : Bool) (palette : Palette)
    (hfits : sprite.FitsAt x y) (fb : Framebuffer) :
    ∃ fb', blitSprite checks palette sprite x y fb = .ok fb' := by
  obtain ⟨ps, hps⟩ := blitPixels_ok checks palette hfits
  rw [blitSprite, hps]
  exact ⟨_, rfl⟩

theorem at_blitSprite {checks : Bool} {c : Cell} {palette : Palette} {alphaThreshold : ℕ}
    {sprite : Sprite} {dx dy : ℤ} (hfits : sprite.FitsAt dx dy)
    (hdraws : SpritePixels.Draws checks palette
      (.new sprite (dx + sprite.x.toInt) (dy + sprite.y.toInt))
      ((c.pixels palette alphaThreshold).map (Pixel.shift dx dy))) (fb : Framebuffer) :
    ∃ fb', blitSprite checks palette sprite dx dy fb = .ok fb' ∧ ∀ x y, fb'.at x y =
      ((c.wordAt palette alphaThreshold (x - dx) (y - dy)).map fun w =>
        rgb565Bytes (rgb565Color w)).getD (fb.at x y) := by
  refine ⟨fb.drawIter ((c.pixels palette alphaThreshold).map (Pixel.shift dx dy)), ?_, ?_⟩
  · rw [blitSprite, blitPixels_eq hfits hdraws]
    rfl
  · intro x y
    refine Framebuffer.at_drawIter_words
      (fun x y => c.wordAt palette alphaThreshold (x - dx) (y - dy)) fb ?_ ?_
    · intro p hp
      obtain ⟨q, hq, rfl⟩ := List.mem_map.mp hp
      have hplace : dx + q.x - dx = q.x ∧ dy + q.y - dy = q.y := by omega
      simp only [Pixel.shift, hplace]
      exact wordAt_of_mem_pixels hq
    · intro hfree
      refine wordAt_of_forall_ne ?_
      rintro p hp ⟨hx, hy⟩
      apply hfree _ (List.mem_map_of_mem hp)
      simp only [Framebuffer.Covers, Pixel.shift, hx, hy]
      omega

/-- From the sheet to the panel: whatever was shown before, after a flush every visible pixel of
the cell shows the palette colour that is nearest to it, where it is drawn, and every other place
what the framebuffer had there. -/
theorem sprite_shown [R : SpiRuntime] (o : Orientation) (chip : Chip) (hcs : chip.csPin = true)
    (htransfer : chip.transfer = none) (flushes : List Flush) (hearly : ∀ f ∈ flushes, f.Early)
    (c : Cell) (palette : Palette) (alphaThreshold : ℕ) (hwidth : c.width ≤ 255)
    (hheight : c.height ≤ 255) (hne : palette ≠ []) (hlen : palette.length ≤ 128) :
    ∃ sprite, (encodeCell c palette alphaThreshold).toSprite = some sprite ∧
      ∀ (checks : Bool) (fb : Framebuffer) (dx dy : ℤ), c.FitsAt dx dy →
        ∃ fb', blitSprite checks palette sprite dx dy fb = .ok fb' ∧ ∀ x y : Fin 128,
          (chip.run (init o ++ flushes.flatMap Flush.signals ++ flush fb')).framebuffer.look
              (o.place x y) =
            ((c.wordAt palette alphaThreshold (x - dx) (y - dy)).map o.look).getD
              (o.shade (fb.at x y)) := by
  obtain ⟨sprite, hsprite, hdraws⟩ := encodeCell_draws c alphaThreshold hwidth hheight hne hlen
  refine ⟨sprite, hsprite, fun checks fb dx dy hfits => ?_⟩
  obtain ⟨hinside, hdrawn⟩ := hdraws checks dx dy hfits
  obtain ⟨fb', hblit, hat⟩ := at_blitSprite hinside hdrawn fb
  refine ⟨fb', hblit, fun x y => ?_⟩
  have hshowing := (Chip.showing_init o hcs htransfer).run hearly
  rw [Chip.run_append, Chip.run_append, (hshowing.done fb').shows x y, hat]
  cases c.wordAt palette alphaThreshold (x - dx) (y - dy) with
  | none => rfl
  | some w => exact shade_rgb565Color o w

/-- The third of three pixels, drawn five to the right, and what was beside it. -/
theorem sprite_shown_three_pixels : ∃ sprite,
    (encodeCell (cell threePixels threeByOne singleCell 0) [0x0000, 0x8000, 0xffff] 16).toSprite =
        some sprite ∧
      ∃ fb', blitSprite true [0x0000, 0x8000, 0xffff] sprite 5 0 (.replicate fbLen 7) = .ok fb' ∧
        (Chip.run (R := handingOver) .chipInit (init .cube ++
          [.failed .blank 4].flatMap Flush.signals ++ flush fb')).framebuffer.look
            (Orientation.cube.place 7 0) = ⟨255, 255, 255, 255⟩ ∧
        (Chip.run (R := handingOver) .chipInit (init .cube ++
          [.failed .blank 4].flatMap Flush.signals ++ flush fb')).framebuffer.look
            (Orientation.cube.place 6 0) = Orientation.cube.shade (7, 7) := by
  obtain ⟨sprite, hsprite, hshown⟩ := sprite_shown (R := handingOver) .cube .chipInit rfl rfl
    [.failed .blank 4] (by decide) (cell threePixels threeByOne singleCell 0)
    [0x0000, 0x8000, 0xffff] 16 (by decide) (by decide) (by decide) (by decide)
  obtain ⟨fb', hblit, hlook⟩ := hshown true (.replicate fbLen 7) 5 0
    ⟨by decide, by decide, by decide, by decide⟩
  refine ⟨sprite, hsprite, fb', hblit, (hlook 7 0).trans (by decide +kernel), ?_⟩
  exact (hlook 6 0).trans (by decide +kernel)

end Hologotchi.Display
