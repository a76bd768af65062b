import Hologotchi.Sprite.RoundTrip
import Hologotchi.Sprite.Safety
import Mathlib.Data.List.ReduceOption

/-! Sprites away from the place of their cells: what `draw_iter` is given, and what is seen of it
(`blit_sprite` in `device/src/render.rs`). -/
namespace Hologotchi.Sprite

open Rust

variable {checks : Bool} {palette : Palette} {s s' : SpritePixels} {p : Pixel} {ps : List Pixel}

namespace SpritePixels

/-- The pixels that `draw_iter` is given. -/
def pixels (checks : Bool) (palette : Palette) (s : SpritePixels) : Except Panic (List Pixel) := do
  .ok (← calls checks palette s.total s).reduceOption

theorem Draws.pixels_eq (h : Draws checks palette s ps) (hfits : s.Fits) :
    s.pixels checks palette = .ok ps := by
  obtain ⟨-, -, hlength⟩ := h.positions hfits
  have hall : ps.length ≤ s.total := Nat.le_trans hlength (Nat.sub_le _ _)
  have hreduce : (ps.map some).reduceOption = ps := by
    rw [List.reduceOption, List.filterMap_map]
    exact List.filterMap_some
  rw [pixels, h.calls_eq hfits, List.take_of_length_le (by rwa [List.length_map])]
  change Except.ok (List.reduceOption _) = _
  rw [List.reduceOption_append, List.reduceOption_replicate_none, List.append_nil, hreduce]

end SpritePixels

/-- What `blit_sprite` draws, at an offset from the sprite's own place. -/
def blitPixels (checks : Bool) (palette : Palette) (sprite : Sprite) (x y : ℤ) :
    Except Panic (List Pixel) := do
  let originX ← addI32 checks x sprite.x.toInt
  let originY ← addI32 checks y sprite.y.toInt
  (SpritePixels.new sprite originX originY).pixels checks palette

variable {c : Cell} {alphaThreshold : ℕ} {x y : ℤ} {sprite : Sprite}

theorem blitPixels_eq (hfits : sprite.FitsAt x y) (hdraws : SpritePixels.Draws checks palette
      (.new sprite (x + sprite.x.toInt) (y + sprite.y.toInt)) ps) :
    blitPixels checks palette sprite x y = .ok ps := by
  rw [blitPixels, addI32_ok hfits.fitsX, addI32_ok hfits.fitsY]
  exact hdraws.pixels_eq hfits.box

/-- Inside the coordinates a sprite of any data can be drawn. -/
theorem blitPixels_ok (checks : Bool) (palette : Palette) (hfits : sprite.FitsAt x y) :
    ∃ ps, blitPixels checks palette sprite x y = .ok ps := by
  obtain ⟨ps, hdraws⟩ := SpritePixels.exists_draws checks palette hfits.box
  exact ⟨ps, blitPixels_eq hfits hdraws⟩

/-- The colour that is seen at a place: that of the palette nearest to the pixel where the cell is
visible, and none elsewhere. -/
def Cell.wordAt (c : Cell) (palette : Palette) (alphaThreshold : ℕ) (x y : ℤ) : Option UInt16 :=
  if (0 ≤ x ∧ x < c.width) ∧ 0 ≤ y ∧ y < c.height then
    (c.index palette alphaThreshold x.toNat y.toNat).map fun v => palette.getD v 0
  else none

theorem mem_pixels : p ∈ c.pixels palette alphaThreshold ↔ ∃ x < c.width, ∃ y < c.height,
    ∃ v, c.index palette alphaThreshold x y = some v ∧
      p = ⟨x, y, rgb565Color (palette.getD v 0)⟩ := by
  rw [Cell.pixels, List.mem_filterMap]
  constructor
  · rintro ⟨⟨x, y⟩, hmem, hsome⟩
    obtain ⟨hx, hy⟩ := mem_positions.mp hmem
    obtain ⟨v, hv, rfl⟩ := Option.map_eq_some_iff.mp hsome
    exact ⟨x, hx, y, hy, v, hv, rfl⟩
  · rintro ⟨x, hx, y, hy, v, hv, rfl⟩
    exact ⟨(x, y), mem_positions.mpr ⟨hx, hy⟩, Option.map_eq_some_iff.mpr ⟨v, hv, rfl⟩⟩

/-- A pixel of the cell has the colour that is seen at its place. -/
theorem wordAt_of_mem_pixels (h : p ∈ c.pixels palette alphaThreshold) :
    ∃ word, c.wordAt palette alphaThreshold p.x p.y = some word ∧ p.color = rgb565Color word := by
  obtain ⟨x, hx, y, hy, v, hv, rfl⟩ := mem_pixels.mp h
  have hin : (0 ≤ (x : ℤ) ∧ (x : ℤ) < c.width) ∧ 0 ≤ (y : ℤ) ∧ (y : ℤ) < c.height := by omega
  refine ⟨palette.getD v 0, ?_, rfl⟩
  rw [Cell.wordAt, if_pos hin, Int.toNat_natCast, Int.toNat_natCast, hv]
  rfl

/-- Where none is there is no colour. -/
theorem wordAt_of_forall_ne (h : ∀ p ∈ c.pixels palette alphaThreshold, ¬ (p.x = x ∧ p.y = y)) :
    c.wordAt palette alphaThreshold x y = none := by
  rw [Cell.wordAt]
  split
  · rename_i hin
    cases hv : c.index palette alphaThreshold x.toNat y.toNat with
    | none => rfl
    | some v =>
      have hmem := mem_pixels.mpr ⟨x.toNat, by omega, y.toNat, by omega, v, hv, rfl⟩
      exact absurd ⟨Int.toNat_of_nonneg hin.1.1, Int.toNat_of_nonneg hin.2.1⟩ (h _ hmem)
  · rfl

end Hologotchi.Sprite
