import Hologotchi.Sprite.Stream

/-! What the firmware draws from data that nobody encoded. -/
namespace Hologotchi.Sprite

open Rust

variable {checks : Bool} {palette : Palette} {s s' : SpritePixels} {p q : Pixel}
  {ps : List Pixel} {k n : ℕ}

/-- Row by row, and from left to right in a row. -/
def RasterLt (p q : Pixel) : Prop := p.y < q.y ∨ p.y = q.y ∧ p.x < q.x

namespace SpritePixels

/-- The results of the first `n` calls of `next`. -/
def calls (checks : Bool) (palette : Palette) : ℕ → SpritePixels →
    Except Panic (List (Option Pixel))
  | 0, _ => .ok []
  | n + 1, s => do
    let (pixel, s) ← s.next checks palette
    .ok (pixel :: (← calls checks palette n s))

def InBox (s : SpritePixels) (p : Pixel) : Prop :=
  (s.originX ≤ p.x ∧ p.x < s.originX + s.sprite.width.toNat) ∧
    s.originY ≤ p.y ∧ p.y < s.originY + s.sprite.height.toNat

/-- A pixel at position `k` of the box. -/
def At (s : SpritePixels) (k : ℕ) (p : Pixel) : Prop :=
  p.x = s.originX + (k % s.width : ℕ) ∧ p.y = s.originY + (k / s.width : ℕ)

/-- A call that yields moves the cursor behind the pixel, and nothing else of the box. -/
structure Yields (s : SpritePixels) (k : ℕ) (p : Pixel) (s' : SpritePixels) : Prop where
  from_cursor : s.pixelIndex ≤ k
  in_total : k < s.total
  position : s.At k p
  sprite_eq : s'.sprite = s.sprite
  originX_eq : s'.originX = s.originX
  originY_eq : s'.originY = s.originY
  cursor : s'.pixelIndex = k + 1

theorem next_exhausted (hunread : s.unread = []) (hleft : s.solidLeft = 0) :
    s.next checks palette = .ok (none, s) := by
  unfold next
  rw [hunread, nextFrom, hleft]
  split
  · rfl
  · rfl

/-- A call finds the data at its end for good, or it yields a pixel. -/
theorem nextFrom_cases {unread : List UInt8} (hfits : s.Fits) (h : s.unread = unread) :
    (∃ s', s.nextFrom checks palette unread = .ok (none, s') ∧
        s'.next checks palette = .ok (none, s')) ∨
      ∃ k p s', s.nextFrom checks palette unread = .ok (some p, s') ∧ s.Yields k p s' := by
  fun_induction nextFrom checks palette s unread with
  | case1 unread s hend =>
    exact .inl ⟨s, rfl, next_end hend⟩
  | case2 unread s hend hleft =>
    rw [pixel_ok hfits (Nat.lt_of_not_le hend)]
    refine .inr ⟨s.pixelIndex, s.exactPixel, _, rfl, ?_⟩
    exact ⟨Nat.le_refl _, Nat.lt_of_not_le hend, ⟨rfl, rfl⟩, rfl, rfl, rfl, rfl⟩
  | case3 s hend hleft =>
    exact .inl ⟨s, rfl, next_exhausted h (Nat.eq_zero_of_not_pos hleft)⟩
  | case4 s hend hleft command unread runLen hskip ih =>
    rcases ih { hfits with } rfl with hnone | ⟨k, p, s', hsome, hyields⟩
    · exact .inl hnone
    · refine .inr ⟨k, p, s', hsome, ?_⟩
      have hcursor := hyields.from_cursor
      exact { hyields with from_cursor := by simp only at hcursor; omega }
  | case5 s hend hleft command hsolid =>
    exact .inl ⟨_, rfl, next_exhausted rfl (Nat.eq_zero_of_not_pos hleft)⟩
  | case6 s hend hleft command runLen hsolid paletteIndex unread rgb565 ih =>
    rcases ih { hfits with } rfl with hnone | ⟨k, p, s', hsome, hyields⟩
    · exact .inl hnone
    · exact .inr ⟨k, p, s', hsome, { hyields with }⟩

theorem next_cases (checks : Bool) (palette : Palette) (hfits : s.Fits) :
    (∃ s', s.next checks palette = .ok (none, s') ∧ s'.next checks palette = .ok (none, s')) ∨
      ∃ k p s', s.next checks palette = .ok (some p, s') ∧ s.Yields k p s' :=
  nextFrom_cases hfits rfl

theorem Yields.fits (h : s.Yields k p s') (hfits : s.Fits) : s'.Fits := by
  obtain ⟨hleft, hright, htop, hbottom⟩ := hfits
  refine ⟨?_, ?_, ?_, ?_⟩
  all_goals simpa only [h.sprite_eq, h.originX_eq, h.originY_eq]

theorem Yields.total_eq (h : s.Yields k p s') : s'.total = s.total := by
  simp only [total, width, h.sprite_eq]

theorem Yields.at_iff (h : s.Yields k p s') {j : ℕ} : s'.At j q ↔ s.At j q := by
  simp only [At, width, h.sprite_eq, h.originX_eq, h.originY_eq]

theorem width_pos (h : k < s.total) : 0 < s.width := by
  rw [total] at h
  exact Nat.pos_of_mul_pos_right (Nat.zero_lt_of_lt h)

theorem At.inBox (h : s.At k p) (hk : k < s.total) : s.InBox p := by
  have hmod : k % s.width < s.sprite.width.toNat := Nat.mod_lt k (width_pos hk)
  have hdiv : k / s.width < s.sprite.height.toNat := Nat.div_lt_of_lt_mul hk
  obtain ⟨hx, hy⟩ := h
  rw [InBox, hx, hy]
  generalize k % s.width = x at hmod
  generalize k / s.width = y at hdiv
  omega

theorem At.rasterLt {j : ℕ} (hp : s.At k p) (hq : s.At j q) (hlt : k < j) : RasterLt p q := by
  have hk := Nat.div_add_mod k s.width
  have hj := Nat.div_add_mod j s.width
  have hle : k / s.width ≤ j / s.width := Nat.div_le_div_right (Nat.le_of_lt hlt)
  obtain ⟨hpx, hpy⟩ := hp
  obtain ⟨hqx, hqy⟩ := hq
  rcases Nat.lt_or_eq_of_le hle with hrow | hrow
  · left
    omega
  · right
    rw [hrow] at hk
    omega

/-- The cursor gets closer to the end with every pixel. -/
theorem exists_draws (checks : Bool) (palette : Palette) (hfits : s.Fits) :
    ∃ ps, Draws checks palette s ps := by
  induction hm : s.total - s.pixelIndex using Nat.strongRecOn generalizing s with
  | ind m ih =>
    rcases next_cases checks palette hfits with ⟨s', hnone, -⟩ | ⟨k, p, s', hsome, hyields⟩
    · exact ⟨[], .done hnone⟩
    · have hcursor := hyields.cursor
      have hfrom := hyields.from_cursor
      have hin := hyields.in_total
      have htotal := hyields.total_eq
      obtain ⟨ps, hps⟩ := ih (s'.total - s'.pixelIndex) (by omega) (hyields.fits hfits) rfl
      exact ⟨p :: ps, .pixel hsome hps⟩

theorem yields_of_next (hfits : s.Fits) (h : s.next checks palette = .ok (some p, s')) :
    ∃ k, s.Yields k p s' := by
  rcases next_cases checks palette hfits with ⟨t, hnone, -⟩ | ⟨k, q, t, hsome, hyields⟩
  · rw [h] at hnone
    simp at hnone
  · rw [h] at hsome
    simp only [Except.ok.injEq, Prod.mk.injEq, Option.some.injEq] at hsome
    obtain ⟨rfl, rfl⟩ := hsome
    exact ⟨k, hyields⟩

/-- The pixels are at positions from the cursor on, each behind the one before. -/
theorem Draws.positions (h : Draws checks palette s ps) (hfits : s.Fits) :
    (∀ p ∈ ps, ∃ k, s.pixelIndex ≤ k ∧ k < s.total ∧ s.At k p) ∧ ps.Pairwise RasterLt ∧
      ps.length ≤ s.total - s.pixelIndex := by
  induction h with
  | done hnone => simp
  | @pixel s s' p ps hsome hrest ih =>
    obtain ⟨k, hyields⟩ := yields_of_next hfits hsome
    obtain ⟨hpositions, hsorted, hlength⟩ := ih (hyields.fits hfits)
    have hcursor := hyields.cursor
    have hfrom := hyields.from_cursor
    have hin := hyields.in_total
    rw [hyields.total_eq] at hlength
    refine ⟨?_, List.pairwise_cons.mpr ⟨?_, hsorted⟩, ?_⟩
    · intro q hq
      rcases List.mem_cons.mp hq with rfl | hq
      · exact ⟨k, hfrom, hin, hyields.position⟩
      · obtain ⟨j, hj, htotal, hat⟩ := hpositions q hq
        rw [hyields.total_eq] at htotal
        exact ⟨j, by omega, htotal, hyields.at_iff.mp hat⟩
    · intro q hq
      obtain ⟨j, hj, -, hat⟩ := hpositions q hq
      exact hyields.position.rasterLt (hyields.at_iff.mp hat) (by omega)
    · rw [List.length_cons]
      omega

theorem calls_ended (h : s.next checks palette = .ok (none, s)) (n : ℕ) :
    calls checks palette n s = .ok (List.replicate n none) := by
  induction n with
  | zero => rfl
  | succ n ih =>
    rw [calls, h]
    change (calls checks palette n s >>= fun rest => .ok (none :: rest)) = _
    rw [ih]
    rfl

theorem Draws.calls_eq (h : Draws checks palette s ps) (hfits : s.Fits) (n : ℕ) :
    calls checks palette n s =
      .ok ((ps.map some).take n ++ List.replicate (n - ps.length) none) := by
  induction n generalizing s ps with
  | zero => simp [calls]
  | succ n ih =>
    rw [calls]
    cases h with
    | @done s s' hnone =>
      have hended : s'.next checks palette = .ok (none, s') := by
        rcases next_cases checks palette hfits with ⟨t, ht, hended⟩ | ⟨k, p, t, hsome, -⟩
        · rw [hnone] at ht
          obtain rfl := congrArg Prod.snd (Except.ok.inj ht)
          exact hended
        · rw [hnone] at hsome
          simp at hsome
      rw [hnone]
      change (calls checks palette n s' >>= fun rest => .ok (none :: rest)) = _
      rw [calls_ended hended]
      rfl
    | @pixel s s' p ps hsome hrest =>
      obtain ⟨k, hyields⟩ := yields_of_next hfits hsome
      rw [hsome]
      change (calls checks palette n s' >>= fun rest => .ok (some p :: rest)) = _
      rw [ih hrest (hyields.fits hfits), List.length_cons, Nat.add_sub_add_right]
      rfl

/-- Whatever the data, a sprite whose box has `i32` coordinates is drawn with finitely many pixels
of the box, in raster order, and then with no more; no call panics, by an overflow or by a division
by zero. -/
theorem new_draws (checks : Bool) (palette : Palette) (sprite : Sprite) (originX originY : ℤ)
    (hfits : (new sprite originX originY).Fits) :
    ∃ ps, Draws checks palette (new sprite originX originY) ps ∧
      (∀ n, calls checks palette n (new sprite originX originY) =
        .ok ((ps.map some).take n ++ List.replicate (n - ps.length) none)) ∧
      ps.length ≤ sprite.width.toNat * sprite.height.toNat ∧
      (∀ p ∈ ps, (new sprite originX originY).InBox p) ∧ ps.Pairwise RasterLt := by
  obtain ⟨ps, hps⟩ := exists_draws checks palette hfits
  obtain ⟨hpositions, hsorted, hlength⟩ := hps.positions hfits
  refine ⟨ps, hps, hps.calls_eq hfits, hlength, ?_, hsorted⟩
  intro p hp
  obtain ⟨k, -, hk, hat⟩ := hpositions p hp
  exact hat.inBox hk

/-- Two white pixels next to each other. -/
def twoWhite : Sprite := ⟨0, 0, 2, 1, [0x81, 0]⟩

/-- At the end of the coordinates, where the box still has them all. -/
theorem new_draws_last : ∃ ps, Draws true [0xffff] (new twoWhite 2147483646 0) ps ∧
    (∀ n, calls true [0xffff] n (new twoWhite 2147483646 0) =
      .ok ((ps.map some).take n ++ List.replicate (n - ps.length) none)) ∧
    ps.length ≤ 2 * 1 ∧ (∀ p ∈ ps, (new twoWhite 2147483646 0).InBox p) ∧ ps.Pairwise RasterLt :=
  new_draws true [0xffff] twoWhite 2147483646 0
    ⟨by decide, by decide, by decide, by decide⟩

/-- From the last coordinate on the second pixel panics, or is drawn at the first coordinate. -/
theorem calls_past_i32 :
    calls true [0xffff] 2 (new twoWhite 2147483647 0) = .error .overflow ∧
      calls false [0xffff] 2 (new twoWhite 2147483647 0) =
        .ok [some ⟨2147483647, 0, rgb565Color 0xffff⟩, some ⟨-2147483648, 0, rgb565Color 0xffff⟩] ∧
      ¬ (new twoWhite 2147483647 0).InBox ⟨-2147483648, 0, rgb565Color 0xffff⟩ ∧
      ¬ RasterLt ⟨2147483647, 0, rgb565Color 0xffff⟩ ⟨-2147483648, 0, rgb565Color 0xffff⟩ := by
  refine ⟨by decide, by decide, ?_, ?_⟩
  · rw [InBox]
    decide
  · rw [RasterLt]
    decide

end SpritePixels

end Hologotchi.Sprite
