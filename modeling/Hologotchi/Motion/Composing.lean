import Hologotchi.Motion.Derive

/-! The cells of a sheet that was put together. -/
namespace Hologotchi.Motion

open Library Library.Fallible Sprite

variable {pixels : List UInt8} {width height columns rows index x y : ℕ} {c d : Cell}
  {cells : List Cell} {image : RgbaImage}

/-- A cell is what its pixels are. -/
theorem Cell.ext_get (h : ∀ x < cell, ∀ y < cell, c.get x y = d.get x y) : c = d := by
  have hbytes : c.bytes = d.bytes := by
    apply List.ext_getElem (c.size_eq.trans d.size_eq.symm)
    intro i hc hd
    have hlt : i / 4 < cell * cell := by
      rw [c.size_eq] at hc
      omega
    -- The byte is one of four at a row and a column.
    have hindex : (i / 4 / cell * cell + i / 4 % cell) * 4 + i % 4 = i := by
      rw [Nat.div_add_mod', Nat.div_add_mod']
    have hpixel := h (i / 4 % cell) (Nat.mod_lt _ (by decide)) (i / 4 / cell)
      (Nat.div_lt_of_lt_mul hlt)
    simp only [get, pixelAt, Rgba.mk.injEq, List.getD_eq_getElem?_getD] at hpixel
    obtain ⟨hr, hg, hb, ha⟩ := hpixel
    have hchannel : c.bytes[i]?.getD 0 = d.bytes[i]?.getD 0 := by
      generalize (i / 4 / cell * cell + i / 4 % cell) * 4 = offset at hindex hr hg hb ha
      obtain hmod | hmod | hmod | hmod : i % 4 = 0 ∨ i % 4 = 1 ∨ i % 4 = 2 ∨ i % 4 = 3 := by omega
      all_goals rw [hmod] at hindex; subst hindex
      · exact hr
      · exact hg
      · exact hb
      · exact ha
    simpa [hc, hd] using hchannel
  cases c
  cases d
  exact (Cell.mk.injEq _ _ _ _).mpr hbytes

/-- Pixels that are written once each from a corner on, and all others. -/
theorem pixelAt_foldl_setSheet {ps : List (ℕ × ℕ)} {left top : ℕ} (pixel : ℕ → ℕ → Rgba)
    (hsize : pixels.length = height * width * 4)
    (hps : ∀ p ∈ ps, left + p.1 < width ∧ top + p.2 < height) (hx : x < width) :
    pixelAt (ps.foldl (fun pixels p =>
      setSheet pixels width (left + p.1) (top + p.2) (pixel p.1 p.2)) pixels) width x y =
      if ∃ p ∈ ps, left + p.1 = x ∧ top + p.2 = y then pixel (x - left) (y - top)
      else pixelAt pixels width x y := by
  induction ps generalizing pixels with
  | nil => simp
  | cons p ps ih =>
    obtain ⟨⟨hpx, hpy⟩, hrest⟩ := List.forall_mem_cons.mp hps
    rw [List.foldl_cons, ih (length_setSheet hsize hpx hpy) hrest,
      pixelAt_setSheet hsize hpx hpy hx]
    by_cases hlater : ∃ p ∈ ps, left + p.1 = x ∧ top + p.2 = y
    · rw [if_pos hlater, if_pos (List.exists_mem_cons_of_exists hlater)]
    · rw [if_neg hlater]
      by_cases hhere : left + p.1 = x ∧ top + p.2 = y
      · rw [if_pos hhere, if_pos ⟨p, List.mem_cons_self, hhere⟩, ← hhere.1, ← hhere.2,
          Nat.add_sub_cancel_left, Nat.add_sub_cancel_left]
      · have hnone : ¬ ∃ q ∈ p :: ps, left + q.1 = x ∧ top + q.2 = y := by
          rintro ⟨q, hq, hat⟩
          rcases List.mem_cons.mp hq with rfl | hq
          · exact hhere hat
          · exact hlater ⟨q, hq, hat⟩
        rw [if_neg hhere, if_neg hnone]

/-- Cells at different indices do not overlap. -/
theorem corner_inj {i j x' y' : ℕ} (hx : x < cell) (hy : y < cell) (hx' : x' < cell)
    (hy' : y' < cell) (hcolumn : (corner columns i).1 + x = (corner columns j).1 + x')
    (hrow : (corner columns i).2 + y = (corner columns j).2 + y') :
    i = j ∧ x = x' ∧ y = y' := by
  have hcell : cell = 128 := rfl
  simp only [corner, hcell] at hcolumn hrow hx hy hx' hy'
  have hmod : i % columns = j % columns := by omega
  have hdiv : i / columns = j / columns := by omega
  have hindex : i = j := by rw [← Nat.div_add_mod i columns, ← Nat.div_add_mod j columns, hmod, hdiv]
  omega

theorem pixelAt_placeCell {n : ℕ} (c : Cell) (hsize : pixels.length = sheetSize columns rows)
    (hn : n < rows * columns) (hindex : index < rows * columns) (hx : x < cell) (hy : y < cell) :
    pixelAt (placeCell pixels columns n c) (columns * cell) ((corner columns index).1 + x)
      ((corner columns index).2 + y) =
        if index = n then c.get x y
        else pixelAt pixels (columns * cell) ((corner columns index).1 + x)
          ((corner columns index).2 + y) := by
  have hinside : ∀ p ∈ positions cell cell, p.1 < cell ∧ p.2 < cell := fun _ => mem_positions.mp
  have hfits : ∀ p ∈ positions cell cell, (corner columns n).1 + p.1 < columns * cell ∧
      (corner columns n).2 + p.2 < rows * cell := fun p hp =>
    corner_fits hn (hinside p hp).1 (hinside p hp).2
  rw [placeCell, pixelAt_foldl_setSheet c.get hsize hfits (corner_fits hindex hx hy).1]
  by_cases hsame : index = n
  · subst hsame
    rw [if_pos ⟨(x, y), mem_positions.mpr ⟨hx, hy⟩, rfl, rfl⟩, if_pos rfl,
      Nat.add_sub_cancel_left, Nat.add_sub_cancel_left]
  · rw [if_neg hsame, if_neg]
    rintro ⟨p, hp, hcolumn, hrow⟩
    obtain ⟨hpx, hpy⟩ := hinside p hp
    exact hsame (corner_inj hpx hpy hx hy hcolumn hrow).1.symm

/-- Each cell of a sheet is the one that was put at its index. -/
theorem pixelAt_placeCells (hsize : pixels.length = sheetSize columns rows)
    (hcount : cells.length ≤ rows * columns) (hindex : index < cells.length) (hx : x < cell)
    (hy : y < cell) :
    pixelAt (placeCells columns pixels cells.zipIdx) (columns * cell)
      ((corner columns index).1 + x) ((corner columns index).2 + y) =
        (cells[index]).get x y := by
  induction cells using List.reverseRecOn with
  | nil => simp at hindex
  | append_singleton cells last ih =>
    simp only [List.length_append, List.length_singleton] at hcount hindex
    have hbefore : (placeCells columns pixels cells.zipIdx).length = sheetSize columns rows := by
      apply length_placeCells hsize
      intro p hp
      have hp := List.snd_lt_of_mem_zipIdx hp
      omega
    have hsplit : placeCells columns pixels (cells ++ [last]).zipIdx =
        placeCell (placeCells columns pixels cells.zipIdx) columns cells.length last := by
      simp [placeCells, List.zipIdx_append]
    rw [hsplit, pixelAt_placeCell last hbefore (by omega) (by omega) hx hy]
    by_cases hlast : index = cells.length
    · subst hlast
      simp
    · rw [if_neg hlast, ih (by omega) (by omega), List.getElem_append_left]

theorem composeSheet_four (h : cells.length = 16) (himage : composeSheet cells 4 = .ok image) :
    BaseSheet image ∧ ∀ (i : Fin 16) (x y : ℕ), x < cell → y < cell →
      image.pixel ((corner 4 i).1 + x) ((corner 4 i).2 + y) =
        (cells.get (i.cast h.symm)).get x y := by
  rw [composeSheet, dif_pos (by rw [h])] at himage
  cases himage
  have hrows : cells.length / 4 = 4 := by rw [h]
  refine ⟨⟨rfl, congrArg (· * cell) hrows⟩, fun i x y hx hy => ?_⟩
  exact pixelAt_placeCells List.length_replicate (by omega) (by omega) hx hy

/-- The cells cut out of a sheet are those it was put together from. -/
theorem cropCell_composeSheet (h : cells.length = 16) (himage : composeSheet cells 4 = .ok image)
    (i : Fin 16) : cropCell image i = .ok (cells.get (i.cast h.symm)) := by
  obtain ⟨hbase, hlook⟩ := composeSheet_four h himage
  obtain ⟨c, hcrop, hc⟩ := cropCell_ok hbase i.isLt
  rw [hcrop, Cell.ext_get fun x hx y hy => (hc x hx y hy).trans (hlook i x y hx hy)]

end Hologotchi.Motion
