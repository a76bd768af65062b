import Hologotchi.Sprite.Stream
import Hologotchi.Sprite.Crop

/-! What the firmware draws from an encoded sprite. -/
namespace Hologotchi.Sprite

open Library Rust RunLength

/-- The sprite that the printed Rust literals denote, when each fits its type. -/
def SpriteRust.toSprite (s : SpriteRust) : Option Sprite :=
  if -32768 ≤ s.x ∧ s.x ≤ 32767 ∧ -32768 ≤ s.y ∧ s.y ≤ 32767 ∧ 0 ≤ s.width ∧ s.width ≤ 255 ∧
      0 ≤ s.height ∧ s.height ≤ 255 ∧ ∀ b ∈ s.data, b < 256 then
    some {
      x := Int16.ofInt s.x
      y := Int16.ofInt s.y
      width := UInt8.ofNat s.width.toNat
      height := UInt8.ofNat s.height.toNat
      data := s.data.map UInt8.ofNat }
  else none

variable {c : Cell} {palette : Palette} {alphaThreshold : ℕ}

theorem index_lt {x y v : ℕ} (hne : palette ≠ []) (h : c.index palette alphaThreshold x y = some v) :
    v < palette.length := by
  rw [Cell.index] at h
  split at h
  · obtain rfl := Option.some.inj h
    exact nearestPaletteIndex_lt _ hne
  · contradiction

theorem indices_lt {minX minY width height : ℕ} (hne : palette ≠ []) :
    ∀ i ∈ c.indices palette alphaThreshold minX minY width height, ∀ v ∈ i,
      v < palette.length := by
  intro i hi v hv
  obtain ⟨y, -, hi⟩ := List.mem_flatMap.mp hi
  obtain ⟨x, -, rfl⟩ := List.mem_map.mp hi
  exact index_lt hne hv

theorem length_indices {minX minY width height : ℕ} :
    (c.indices palette alphaThreshold minX minY width height).length = width * height := by
  simp [Cell.indices, List.length_flatMap, List.map_const', Nat.mul_comm]

/-- The values of the runs are those of the list. -/
theorem runs_lt {indices : List (Option ℕ)} {n : ℕ} (h : ∀ i ∈ indices, ∀ v ∈ i, v < n) :
    ∀ r ∈ runs maxRunLen indices, ∀ v ∈ r.1, v < n := by
  intro r hr
  exact h r.1 (mem_of_mem_runs (by decide) hr)

theorem encodeRle_lt {indices : List (Option ℕ)} (h : ∀ i ∈ indices, ∀ v ∈ i, v < 256) :
    ∀ b ∈ encodeRle indices, b < 256 := by
  intro b hb
  obtain ⟨⟨value, n⟩, hr, hb⟩ := List.mem_flatMap.mp hb
  have hn : 1 ≤ n ∧ n ≤ maxRunLen := runs_bounds (by decide) hr
  have hlen : n - 1 < 128 := by
    rw [maxRunLen] at hn
    omega
  cases value with
  | none =>
    obtain rfl := List.mem_singleton.mp hb
    exact Nat.lt_trans hlen (by decide)
  | some v =>
    rcases List.mem_cons.mp hb with rfl | hb
    · exact (SpritePixels.command_solid (n - 1) hlen).2.2
    · obtain rfl := List.mem_singleton.mp hb
      exact runs_lt h _ hr b rfl

/-- A cell with nothing visible is encoded as an empty sprite. -/
theorem encodeCell_empty (h : c.visiblePositions alphaThreshold = []) :
    encodeCell c palette alphaThreshold = ⟨0, 0, 0, 0, [], 0⟩ := by
  have hmax := (bounds_encloses c alphaThreshold).empty h
  rw [encodeCell, if_pos]
  left
  omega

/-- A cell has `i32` coordinates where it is put. -/
structure Cell.FitsAt (c : Cell) (x y : ℤ) : Prop where
  fitsX : FitsI32 x
  fitsY : FitsI32 y
  right : x + c.width ≤ 2 ^ 31
  bottom : y + c.height ≤ 2 ^ 31

/-- The box of an encoded cell holds its visible pixels and lies inside the cell. -/
structure Box (c : Cell) (palette : Palette) (alphaThreshold : ℕ) where
  minX : ℕ
  minY : ℕ
  width : ℕ
  height : ℕ
  fitsX : minX + width ≤ c.width
  fitsY : minY + height ≤ c.height
  inside : ∀ p ∈ c.visiblePositions alphaThreshold,
    (minX ≤ p.1 ∧ p.1 < minX + width) ∧ minY ≤ p.2 ∧ p.2 < minY + height
  encoded : encodeCell c palette alphaThreshold = {
    x := minX
    y := minY
    width := width
    height := height
    data := encodeRle (c.indices palette alphaThreshold minX minY width height)
    visiblePixels := (c.visiblePositions alphaThreshold).length }

theorem exists_box (palette : Palette) (h : c.visiblePositions alphaThreshold ≠ []) :
    Nonempty (Box c palette alphaThreshold) := by
  obtain ⟨p, hp⟩ := List.exists_mem_of_ne_nil _ h
  have hb := bounds_encloses c alphaThreshold
  generalize hbox : c.bounds alphaThreshold = b at hb
  have hin := hb.inside p hp
  have hmaxX := hb.maxX_lt
  have hmaxY := hb.maxY_lt
  have hwidth : b.maxX - b.minX + 1 = ((b.maxX - b.minX + 1).toNat : ℕ) := by omega
  have hheight : b.maxY - b.minY + 1 = ((b.maxY - b.minY + 1).toNat : ℕ) := by omega
  refine ⟨{
    minX := b.minX
    minY := b.minY
    width := (b.maxX - b.minX + 1).toNat
    height := (b.maxY - b.minY + 1).toNat
    fitsX := by omega
    fitsY := by omega
    inside := ?_
    encoded := ?_ }⟩
  · intro q hq
    have hqin := hb.inside q hq
    omega
  · have hsome : ¬ (b.maxX < b.minX ∨ b.maxY < b.minY) := by omega
    rw [encodeCell, hbox, if_neg hsome, ← hb.count, ← hwidth, ← hheight]

namespace Box

variable (box : Box c palette alphaThreshold)

/-- The sprite of a box. -/
def sprite : Sprite where
  x := Int16.ofInt box.minX
  y := Int16.ofInt box.minY
  width := UInt8.ofNat box.width
  height := UInt8.ofNat box.height
  data := (encodeRle (c.indices palette alphaThreshold box.minX box.minY box.width
    box.height)).map UInt8.ofNat

theorem encodeCell_toSprite (hwidth : c.width ≤ 255) (hheight : c.height ≤ 255)
    (hne : palette ≠ []) (hlen : palette.length ≤ 128) :
    (encodeCell c palette alphaThreshold).toSprite = some box.sprite := by
  have hx := box.fitsX
  have hy := box.fitsY
  have hbytes : ∀ b ∈ encodeRle (c.indices palette alphaThreshold box.minX box.minY box.width
      box.height), b < 256 := by
    apply encodeRle_lt
    intro i hi v hv
    have hv := indices_lt hne i hi v hv
    omega
  rw [box.encoded, SpriteRust.toSprite, if_pos]
  · rfl
  · refine ⟨?_, ?_, ?_, ?_, ?_, ?_, ?_, ?_, hbytes⟩ <;> simp only <;> omega

theorem sprite_size (hwidth : c.width ≤ 255) (hheight : c.height ≤ 255) :
    box.sprite.width.toNat = box.width ∧ box.sprite.height.toNat = box.height := by
  have hfitsX := box.fitsX
  have hfitsY := box.fitsY
  refine ⟨UInt8.toNat_ofNat_of_lt' ?_, UInt8.toNat_ofNat_of_lt' ?_⟩
  all_goals
    rw [UInt8.size]
    omega

theorem sprite_place (hwidth : c.width ≤ 255) (hheight : c.height ≤ 255) :
    box.sprite.x.toInt = box.minX ∧ box.sprite.y.toInt = box.minY := by
  have hfitsX := box.fitsX
  have hfitsY := box.fitsY
  exact ⟨Int16.toInt_ofInt_of_le (by omega) (by omega),
    Int16.toInt_ofInt_of_le (by omega) (by omega)⟩

theorem fitsAt_sprite (hwidth : c.width ≤ 255) (hheight : c.height ≤ 255)
    (hvis : c.visiblePositions alphaThreshold ≠ []) {dx dy : ℤ} (hfits : c.FitsAt dx dy) :
    box.sprite.FitsAt dx dy := by
  have hfitsX := box.fitsX
  have hfitsY := box.fitsY
  obtain ⟨p, hp⟩ := List.exists_mem_of_ne_nil _ hvis
  have hin := box.inside p hp
  obtain ⟨hw, hh⟩ := box.sprite_size hwidth hheight
  obtain ⟨hx, hy⟩ := box.sprite_place hwidth hheight
  obtain ⟨⟨hleft, -⟩, ⟨htop, -⟩, hright, hbottom⟩ := hfits
  refine ⟨⟨?_, ?_⟩, ⟨?_, ?_⟩, ⟨?_, ?_, ?_, ?_⟩⟩
  all_goals
    simp only [SpritePixels.new, hw, hh, hx, hy]
    omega

/-- The sprite of a box draws the visible pixels of the cell, wherever it is put. -/
theorem draws_sprite (checks : Bool) (hwidth : c.width ≤ 255) (hheight : c.height ≤ 255)
    (hne : palette ≠ []) (hlen : palette.length ≤ 128) {dx dy : ℤ}
    (hfits : box.sprite.FitsAt dx dy) :
    SpritePixels.Draws checks palette
      (.new box.sprite (dx + box.sprite.x.toInt) (dy + box.sprite.y.toInt))
      ((c.pixels palette alphaThreshold).map (Pixel.shift dx dy)) := by
  let s := SpritePixels.new box.sprite (dx + box.sprite.x.toInt) (dy + box.sprite.y.toInt)
  let indices := c.indices palette alphaThreshold box.minX box.minY box.width box.height
  have hfitsX := box.fitsX
  have hfitsY := box.fitsY
  obtain ⟨hw, hh⟩ := box.sprite_size hwidth hheight
  obtain ⟨hx, hy⟩ := box.sprite_place hwidth hheight
  have hvalues : ∀ r ∈ runs maxRunLen indices, ∀ v ∈ r.1, v < 256 := by
    apply runs_lt
    intro i hi v hv
    have hv := indices_lt hne i hi v hv
    omega
  have htotal : s.pixelIndex + (expand (runs maxRunLen indices)).length = s.total := by
    have hsize : s.total = box.width * box.height := congrArg₂ (· * ·) hw hh
    rw [expand_runs, length_indices, hsize]
    exact Nat.zero_add _
  have hdraws : SpritePixels.Draws checks palette s
      (s.frame.pixelsFrom palette s.pixelIndex (expand (runs maxRunLen indices))) :=
    SpritePixels.draws_runs hfits.box (fun r hr => runs_bounds (by decide) hr) hvalues rfl rfl htotal
  have hframe : s.frame = ⟨box.width, dx + box.minX, dy + box.minY⟩ := by
    rw [← hx, ← hy, ← hw]
    rfl
  have hpixels : s.frame.pixelsFrom palette 0 indices =
      (c.pixels palette alphaThreshold).map (Pixel.shift dx dy) := by
    rw [pixels_crop box.fitsX box.fitsY box.inside, hframe]
    exact (Frame.pixelsFrom_shift ⟨box.width, box.minX, box.minY⟩ dx dy palette 0 indices).trans
      (congrArg _ (Frame.pixelsFrom_rows ⟨box.width, box.minX, box.minY⟩ palette box.height _))
  rw [expand_runs] at hdraws
  rw [← hpixels]
  exact hdraws

end Box

/-- A fully transparent cell draws nothing. -/
theorem pixels_eq_nil (h : c.visiblePositions alphaThreshold = []) :
    c.pixels palette alphaThreshold = [] := by
  apply List.filterMap_eq_nil_iff.mpr
  intro p hp
  have hvis : ¬ c.visible alphaThreshold p.1 p.2 = true := List.filter_eq_nil_iff.mp h p hp
  rw [Cell.index, if_neg hvis, Option.map_none]

/-- The encoder and the decoder agree on every cell, wherever it is put. -/
theorem encodeCell_draws (c : Cell) (alphaThreshold : ℕ) (hwidth : c.width ≤ 255)
    (hheight : c.height ≤ 255) (hne : palette ≠ []) (hlen : palette.length ≤ 128) :
    ∃ sprite, (encodeCell c palette alphaThreshold).toSprite = some sprite ∧
      ∀ checks dx dy, c.FitsAt dx dy → sprite.FitsAt dx dy ∧ SpritePixels.Draws checks palette
        (.new sprite (dx + sprite.x.toInt) (dy + sprite.y.toInt))
        ((c.pixels palette alphaThreshold).map (Pixel.shift dx dy)) := by
  by_cases hvis : c.visiblePositions alphaThreshold = []
  · refine ⟨⟨0, 0, 0, 0, []⟩, ?_, fun checks dx dy hfits => ⟨?_, ?_⟩⟩
    · rw [encodeCell_empty hvis]
      rfl
    · have hzero : (0 : Int16).toInt = 0 ∧ ((0 : UInt8).toNat : ℤ) = 0 := by decide
      obtain ⟨⟨hleft, hlast⟩, ⟨htop, hlow⟩, -, -⟩ := hfits
      refine ⟨⟨?_, ?_⟩, ⟨?_, ?_⟩, ⟨?_, ?_, ?_, ?_⟩⟩
      all_goals
        simp only [SpritePixels.new, hzero.1, hzero.2]
        omega
    · rw [pixels_eq_nil hvis]
      exact .done (SpritePixels.next_end (Nat.le_refl 0))
  · obtain ⟨box⟩ := exists_box palette hvis
    refine ⟨box.sprite, box.encodeCell_toSprite hwidth hheight hne hlen, ?_⟩
    intro checks dx dy hfits
    have hinside := box.fitsAt_sprite hwidth hheight hvis hfits
    exact ⟨hinside, box.draws_sprite checks hwidth hheight hne hlen hinside⟩

theorem Cell.fitsAt_zero (hwidth : c.width ≤ 255) (hheight : c.height ≤ 255) : c.FitsAt 0 0 :=
  ⟨by decide, by decide, by omega, by omega⟩

theorem map_shift_zero (ps : List Pixel) : ps.map (Pixel.shift 0 0) = ps := by
  have hsame : Pixel.shift 0 0 = id := by
    funext p
    simp [Pixel.shift]
  rw [hsame, List.map_id]

theorem data_lt_of_toSprite {s : SpriteRust} {sprite : Sprite} (h : s.toSprite = some sprite) :
    ∀ b ∈ s.data, b < 256 := by
  rw [SpriteRust.toSprite] at h
  split at h
  · rename_i hfits
    obtain ⟨-, -, -, -, -, -, -, -, hdata⟩ := hfits
    exact hdata
  · contradiction

theorem visiblePositions_eq_nil
    (h : ∀ x < c.width, ∀ y < c.height, ¬ c.visible alphaThreshold x y) :
    c.visiblePositions alphaThreshold = [] := by
  apply List.filter_eq_nil_iff.mpr
  rintro ⟨x, y⟩ hp
  obtain ⟨hx, hy⟩ := mem_positions.mp hp
  exact h x hx y hy

/-- For a pose of a sheet of the right shape, the sprite fits its types, and the iterator ends
after the visible pixels of the cell, each at its place and in its nearest colour. -/
theorem sprite_codec_faithful (image : RgbaImage) (sizes : SheetMeta) (spec : SheetSpec)
    (poseIndex alphaThreshold : ℕ) (palette : Palette) (hsheet : ValidSheet image sizes spec)
    (hpose : poseIndex < spec.columns * spec.rows) (hwidth : sizes.cellWidth ≤ 255)
    (hheight : sizes.cellHeight ≤ 255) (hne : palette ≠ []) (hlen : palette.length ≤ 128) :
    (∃ sprite, (encodeSprite palette alphaThreshold image sizes spec poseIndex).toSprite =
        some sprite ∧
      ∀ checks ps, SpritePixels.Draws checks palette
          (.new sprite sprite.x.toInt sprite.y.toInt) ps ↔
        ps = (cell image sizes spec poseIndex).pixels palette alphaThreshold) ∧
    (∀ b ∈ (encodeSprite palette alphaThreshold image sizes spec poseIndex).data, b < 256) ∧
    (∀ x < sizes.cellWidth, ∀ y < sizes.cellHeight,
      image.offset (poseIndex % spec.columns * sizes.cellWidth + x)
        (poseIndex / spec.columns * sizes.cellHeight + y) + 3 < image.pixels.length) ∧
    (∀ rgb565, nearestPaletteIndex rgb565 palette < palette.length) ∧
    ((∀ x < sizes.cellWidth, ∀ y < sizes.cellHeight,
        ¬ (cell image sizes spec poseIndex).visible alphaThreshold x y) →
      encodeSprite palette alphaThreshold image sizes spec poseIndex = ⟨0, 0, 0, 0, [], 0⟩ ∧
      (cell image sizes spec poseIndex).pixels palette alphaThreshold = []) := by
  obtain ⟨sprite, hsprite, hdraws⟩ :=
    encodeCell_draws (cell image sizes spec poseIndex) alphaThreshold hwidth hheight hne hlen
  refine ⟨⟨sprite, hsprite, ?_⟩, data_lt_of_toSprite hsprite, ?_, ?_, ?_⟩
  · intro checks ps
    have hplace := (hdraws checks 0 0 (Cell.fitsAt_zero hwidth hheight)).2
    rw [Int.zero_add, Int.zero_add, map_shift_zero] at hplace
    constructor
    · intro hps
      exact SpritePixels.draws_unique hps hplace
    · rintro rfl
      exact hplace
  · intro x hx y hy
    exact cell_offset_lt hsheet hpose hx hy
  · intro rgb565
    exact nearestPaletteIndex_lt rgb565 hne
  · intro hinvisible
    have hvis : (cell image sizes spec poseIndex).visiblePositions alphaThreshold = [] :=
      visiblePositions_eq_nil hinvisible
    exact ⟨encodeCell_empty hvis, pixels_eq_nil hvis⟩

/-- A half opaque red pixel, a clear one and an opaque white one. -/
def threePixels : RgbaImage where
  width := 3
  height := 1
  pixels := [255, 0, 0, 128, 9, 9, 9, 0, 255, 255, 255, 255]
  size_eq := rfl

def threeByOne : SheetMeta := ⟨3, 1, by decide, by decide⟩

def singleCell : SheetSpec := ⟨1, 1, by decide, by decide⟩

theorem sprite_codec_faithful_three_pixels :
    ∃ sprite, (encodeSprite [0x0000, 0x8000, 0xffff] 16 threePixels threeByOne singleCell
        0).toSprite = some sprite ∧
      ∀ checks ps, SpritePixels.Draws checks [0x0000, 0x8000, 0xffff]
          (.new sprite sprite.x.toInt sprite.y.toInt) ps ↔
        ps = [⟨0, 0, 16, 0, 0⟩, ⟨2, 0, 31, 63, 31⟩] := by
  have hpixels : (cell threePixels threeByOne singleCell 0).pixels [0x0000, 0x8000, 0xffff] 16 =
      [⟨0, 0, 16, 0, 0⟩, ⟨2, 0, 31, 63, 31⟩] := by decide +kernel
  rw [← hpixels]
  exact (sprite_codec_faithful threePixels threeByOne singleCell 0 16 [0x0000, 0x8000, 0xffff]
    ⟨rfl, rfl⟩ (by decide) (by decide) (by decide) (by decide) (by decide)).1

end Hologotchi.Sprite
