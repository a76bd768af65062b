import Hologotchi.Motion.Canvas

/-! When a channel of the composite of two pixels leaves the range of a byte. The alpha of the
composite is rounded to nearest and its colours are rounded down, so a colour may exceed 255. -/
namespace Hologotchi.Motion

open Library Sprite

variable {s m u l : ℕ} {top below : Rgba}

/-- What is left of the pixel below, in parts of 255 times 255. -/
def kept (top below : Rgba) : ℕ := below.a.toNat * (255 - top.a.toNat)

/-- Of a channel `u` at alpha `s` over a channel `l` kept to `m` parts: what rounding `m` down to a
multiple of 255 takes off the alpha outweighs all that the two channels leave free. -/
def RunsOver (s m u l : ℕ) : Prop :=
  m % 255 ≤ 127 ∧ (256 - u) * s + m / 255 + ((255 - l) * m + 254) / 255 ≤ m % 255

instance (s m u l : ℕ) : Decidable (RunsOver s m u l) := inferInstanceAs (Decidable (_ ∧ _))

theorem runsOver_iff (hs : 0 < s) (hu : u ≤ 255) (hl : l ≤ 255) :
    RunsOver s m u l ↔ 256 ≤ (u * s + l * m / 255) / (s + (m + 127) / 255) := by
  have hupper : (256 - u) * s + u * s = 256 * s := by
    rw [← Nat.add_mul]
    congr 1
    omega
  have hlower : (255 - l) * m + l * m = 255 * m := by
    rw [← Nat.add_mul]
    congr 1
    omega
  rw [Nat.le_div_iff_mul_le (by omega), RunsOver]
  omega

/-- No channel runs over a transparent pixel. -/
theorem not_runsOver_zero (hs : 0 < s) (hu : u ≤ 255) : ¬ RunsOver s 0 u l := by
  have hpos : 0 < (256 - u) * s := Nat.mul_pos (by omega) hs
  rintro ⟨-, h⟩
  omega

/-- Laying the upper pixel over the lower one takes a channel out of range. -/
def Overflows (top below : Rgba) : Prop :=
  RunsOver top.a.toNat (kept top below) top.r.toNat below.r.toNat ∨
    RunsOver top.a.toNat (kept top below) top.g.toNat below.g.toNat ∨
    RunsOver top.a.toNat (kept top below) top.b.toNat below.b.toNat

instance (top below : Rgba) : Decidable (Overflows top below) :=
  inferInstanceAs (Decidable (_ ∨ _ ∨ _))

/-- What the two pixels look like together. -/
def composite (top below : Rgba) : Rgba :=
  let m := kept top below
  let a := top.a.toNat + (m + 127) / 255
  let channel (u l : UInt8) : UInt8 :=
    UInt8.ofNat ((u.toNat * top.a.toNat + l.toNat * m / 255) / a)
  ⟨channel top.r below.r, channel top.g below.g, channel top.b below.b, UInt8.ofNat a⟩

/-- Pixels that can be laid on one another, in this order, with every channel a byte. -/
def Composable : Rgba → List Rgba → Prop
  | _, [] => True
  | below, top :: above => ¬ Overflows top below ∧ Composable (composite top below) above

instance decidableComposable : (below : Rgba) → (above : List Rgba) →
    Decidable (Composable below above)
  | _, [] => .isTrue trivial
  | below, top :: above =>
    have := decidableComposable (composite top below) above
    inferInstanceAs (Decidable (_ ∧ _))

theorem alpha_pos (hvisible : top.a ≠ 0) : 0 < top.a.toNat := by
  rw [Nat.pos_iff_ne_zero]
  intro h
  exact hvisible (UInt8.toNat_inj.mp h)

theorem kept_le (top below : Rgba) : kept top below ≤ 255 * (255 - top.a.toNat) :=
  Nat.mul_le_mul_right _ (Nat.le_of_lt_succ below.a.toNat_lt)

theorem kept_of_opaque (h : top.a = 255) : kept top below = 0 := by
  simp [kept, h]

theorem kept_of_transparent (h : below.a = 0) : kept top below = 0 := by
  simp [kept, h]

theorem not_overflows
    (h : ∀ u l : UInt8, ¬ RunsOver top.a.toNat (kept top below) u.toNat l.toNat) :
    ¬ Overflows top below := by
  rintro (hr | hg | hb)
  · exact h _ _ hr
  · exact h _ _ hg
  · exact h _ _ hb

theorem not_overflows_of_kept (hvisible : top.a ≠ 0) (h : kept top below = 0) :
    ¬ Overflows top below := by
  apply not_overflows
  intro u l
  rw [h]
  exact not_runsOver_zero (alpha_pos hvisible) (Nat.le_of_lt_succ u.toNat_lt)

/-- From half opacity on nothing runs over. -/
theorem not_overflows_of_half (h : 128 ≤ top.a.toNat) : ¬ Overflows top below := by
  apply not_overflows
  intro u l
  have hfree : 1 * top.a.toNat ≤ (256 - u.toNat) * top.a.toNat := by
    have hu := u.toNat_lt
    exact Nat.mul_le_mul_right _ (by omega)
  rintro ⟨hdown, hloss⟩
  omega

theorem composable_of_half {layers : List Rgba} (h : ∀ top ∈ layers, 128 ≤ top.a.toNat) :
    Composable below layers := by
  induction layers generalizing below with
  | nil => trivial
  | cons top above ih =>
    obtain ⟨htop, habove⟩ := List.forall_mem_cons.mp h
    exact ⟨not_overflows_of_half htop, ih habove⟩

/-- Nothing shows through from below. -/
theorem composite_of_kept (hvisible : top.a ≠ 0) (h : kept top below = 0) :
    composite top below = top := by
  have hpos := alpha_pos hvisible
  have hchannel (u l : UInt8) : UInt8.ofNat
      ((u.toNat * top.a.toNat + l.toNat * 0 / 255) / (top.a.toNat + (0 + 127) / 255)) = u := by
    have halpha : top.a.toNat + (0 + 127) / 255 = top.a.toNat := by omega
    rw [Nat.mul_zero, Nat.zero_div, Nat.add_zero, halpha, Nat.mul_div_cancel _ hpos,
      UInt8.ofNat_toNat]
  have halpha : UInt8.ofNat (top.a.toNat + (0 + 127) / 255) = top.a := by simp
  simp only [composite, h, hchannel, halpha]

/-- A channel of the composite is a byte unless it runs over. -/
theorem channel_lt_iff (hvisible : top.a ≠ 0) (u l : UInt8) :
    (u.toNat * top.a.toNat + l.toNat * below.a.toNat * (255 - top.a.toNat) / 255) /
        (top.a.toNat + (kept top below + 127) / 255) < 256 ↔
      ¬ RunsOver top.a.toNat (kept top below) u.toNat l.toNat := by
  rw [runsOver_iff (alpha_pos hvisible) (Nat.le_of_lt_succ u.toNat_lt)
    (Nat.le_of_lt_succ l.toNat_lt), Nat.not_le, Nat.mul_assoc l.toNat]
  rfl

/-- `_alpha_paste` raises where a channel runs over, and makes the composite elsewhere. -/
theorem blend_eq (hvisible : top.a ≠ 0) : blend top below =
    if Overflows top below then .error (.valueError "bytes must be in range(0, 256)")
    else .ok (composite top below) := by
  by_cases hopaque : top.a = 255
  · have hkept : kept top below = 0 := kept_of_opaque hopaque
    rw [blend, if_pos hopaque, if_neg (not_overflows_of_kept hvisible hkept),
      composite_of_kept hvisible hkept]
  · have hpos := alpha_pos hvisible
    have halpha : top.a.toNat + (kept top below + 127) / 255 < 256 := by
      have hkept := kept_le top below
      have hbyte := top.a.toNat_lt
      omega
    have hshown : ¬ top.a.toNat + (kept top below + 127) / 255 = 0 := by omega
    let channel (u l : UInt8) : ℕ :=
      (u.toNat * top.a.toNat + l.toNat * below.a.toNat * (255 - top.a.toNat) / 255) /
        (top.a.toNat + (kept top below + 127) / 255)
    have hrange (u l : UInt8) : channel u l < 256 ↔
        ¬ RunsOver top.a.toNat (kept top below) u.toNat l.toNat := channel_lt_iff hvisible u l
    have hblend : blend top below = toBytes (channel top.r below.r) (channel top.g below.g)
        (channel top.b below.b) (top.a.toNat + (kept top below + 127) / 255) := by
      rw [blend, if_neg hopaque]
      exact if_neg hshown
    rw [hblend, toBytes]
    by_cases hover : Overflows top below
    · rw [if_pos hover, if_neg]
      rintro ⟨hr, hg, hb, -⟩
      rcases hover with h | h | h
      · exact (hrange _ _).mp hr h
      · exact (hrange _ _).mp hg h
      · exact (hrange _ _).mp hb h
    · rw [if_neg hover, if_pos]
      · simp only [channel, composite, Nat.mul_assoc]
        rfl
      · simp only [Overflows, not_or] at hover
        obtain ⟨hr, hg, hb⟩ := hover
        exact ⟨(hrange _ _).mpr hr, (hrange _ _).mpr hg, (hrange _ _).mpr hb, halpha⟩

/-- A stack of visible pixels is composed without an error when no layer runs over. -/
theorem stack_isOk_iff {layers : List Rgba} (hvisible : ∀ top ∈ layers, top.a ≠ 0) :
    (Layers.stack blend below layers).isOk = true ↔ Composable below layers := by
  induction layers generalizing below with
  | nil => exact iff_of_true rfl trivial
  | cons top above ih =>
    obtain ⟨htop, habove⟩ := List.forall_mem_cons.mp hvisible
    rw [Layers.stack, blend_eq htop, Composable]
    by_cases hover : Overflows top below
    · rw [if_pos hover]
      exact iff_of_false Bool.false_ne_true fun h => h.1 hover
    · rw [if_neg hover]
      exact (ih habove).trans (and_iff_right hover).symm

end Hologotchi.Motion
