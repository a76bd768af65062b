import Hologotchi.Firmware.Text
import Hologotchi.Library.Fallible

/-! What the firmware accepts, whatever the JSON reader makes of a line. -/
namespace Hologotchi.Firmware

open Library Trim Fallible

/-- The longest prefix of whole characters that fits. -/
structure LongestFitting (capacity : ℕ) (chars taken : List Char) : Prop where
  isPrefix : taken <+: chars
  fits : utf8Len taken ≤ capacity
  longest : ∀ other, other <+: chars → utf8Len other ≤ capacity → other <+: taken

/-- An update is fit to be shown, and its text is that of the raw update as far as there is room. -/
structure Sound (raw : RawBehaviorUpdate) (update : BehaviorUpdate) : Prop where
  mood : moodMatchesAnimation update.mood update.animation = true
  alert : update.alert = true ↔ update.animation = .alert
  duration : minDurationMs ≤ update.durationMs ∧ update.durationMs ≤ maxDurationMs
  text : ∀ text ∈ update.text, text.chars ≠ [] ∧ ∃ rawText ∈ raw.text,
    LongestFitting textCapacity (trim isWhitespace rawText.chars) text.chars
  silent : update.text = none ↔ ∀ rawText ∈ raw.text, trim isWhitespace rawText.chars = []

variable {fromSlice : List UInt8 → Option (RawBehaviorUpdate × ℕ)} {frame : List UInt8}
  {raw : RawBehaviorUpdate} {update : BehaviorUpdate} {n used : ℕ} {chars taken : List Char}

theorem utf8Len_append (a b : List Char) : utf8Len (a ++ b) = utf8Len a + utf8Len b := by
  simp [utf8Len]

theorem utf8Len_mono (h : taken <+: chars) : utf8Len taken ≤ utf8Len chars := by
  obtain ⟨rest, rfl⟩ := h
  rw [utf8Len_append]
  omega

/-- Pushing stops at the first character that does not fit, and no longer prefix fits then. -/
theorem pushWhile_longestFitting (s : HeaplessString n) (chars : List Char) :
    s.chars <+: (s.pushWhile chars).chars ∧
      LongestFitting n (s.chars ++ chars) (s.pushWhile chars).chars := by
  induction chars generalizing s with
  | nil =>
    rw [List.append_nil]
    exact ⟨List.prefix_refl _, List.prefix_refl _, s.fits, fun _ hother _ => hother⟩
  | cons ch rest ih =>
    by_cases hroom : utf8Len (s.chars ++ [ch]) ≤ n
    · have hpush : s.push ch = some ⟨s.chars ++ [ch], hroom⟩ := dif_pos hroom
      have hstep : s.pushWhile (ch :: rest) =
          (⟨s.chars ++ [ch], hroom⟩ : HeaplessString n).pushWhile rest := by
        rw [HeaplessString.pushWhile, hpush]
      obtain ⟨hkept, hlongest⟩ := ih ⟨s.chars ++ [ch], hroom⟩
      rw [List.append_cons, hstep]
      exact ⟨(List.prefix_append _ _).trans hkept, hlongest⟩
    · have hpush : s.push ch = none := dif_neg hroom
      have hstep : s.pushWhile (ch :: rest) = s := by
        rw [HeaplessString.pushWhile, hpush]
      rw [hstep]
      refine ⟨List.prefix_refl _, List.prefix_append _ _, s.fits, ?_⟩
      intro other hother hfits
      have hnext : s.chars ++ [ch] <+: s.chars ++ ch :: rest := ⟨rest, by simp⟩
      rcases List.prefix_or_prefix_of_prefix hother hnext with hshort | hlong
      · rcases List.prefix_concat_iff.mp hshort with rfl | hwithin
        · exact absurd hfits hroom
        · exact hwithin
      · exact absurd ((utf8Len_mono hlong).trans hfits) hroom

theorem longestFitting_new (chars : List Char) :
    LongestFitting n chars ((HeaplessString.new : HeaplessString n).pushWhile chars).chars :=
  (pushWhile_longestFitting .new chars).2

theorem clampText_some_spec {rawText : Option (HeaplessString rawTextCapacity)}
    {text : HeaplessString textCapacity} (h : clampText rawText = some text) :
    text.chars ≠ [] ∧ ∃ t ∈ rawText,
      LongestFitting textCapacity (trim isWhitespace t.chars) text.chars := by
  cases rawText with
  | none => cases h
  | some t =>
    simp only [clampText] at h
    split at h
    · cases h
    case isFalse hne =>
      obtain rfl := Option.some.inj h
      exact ⟨hne, t, rfl, longestFitting_new _⟩

/-- A first character always fits, so only blank text is dropped. -/
theorem clampText_none_iff {rawText : Option (HeaplessString rawTextCapacity)} :
    clampText rawText = none ↔ ∀ t ∈ rawText, trim isWhitespace t.chars = [] := by
  cases rawText with
  | none => simp [clampText]
  | some t =>
    simp only [clampText, Option.mem_def, Option.some.injEq, forall_eq']
    have htaken := longestFitting_new (n := textCapacity) (trim isWhitespace t.chars)
    constructor
    · intro h
      split at h
      case isFalse => cases h
      case isTrue hnil =>
        cases htrim : trim isWhitespace t.chars with
        | nil => rfl
        | cons ch rest =>
          have hone : utf8Len [ch] ≤ textCapacity := by
            have hsize := ch.utf8Size_le_four
            simp only [utf8Len, textCapacity, List.map_singleton, List.sum_singleton]
            omega
          rw [htrim] at htaken hnil
          have hfirst := htaken.longest [ch] ⟨rest, rfl⟩ hone
          rw [hnil] at hfirst
          cases List.prefix_nil.mp hfirst
    · intro hnil
      rw [hnil] at htaken ⊢
      rw [if_pos (List.prefix_nil.mp htaken.isPrefix)]

theorem clamp_mem {x low high : UInt32} (h : low ≤ high) :
    low ≤ clamp x low high ∧ clamp x low high ≤ high := by
  unfold clamp
  split
  case isTrue => exact ⟨UInt32.le_refl low, h⟩
  case isFalse hlow =>
    split
    case isTrue => exact ⟨h, UInt32.le_refl high⟩
    case isFalse hhigh => exact ⟨UInt32.not_lt.mp hlow, UInt32.not_lt.mp hhigh⟩

theorem parse_ok (h : parse fromSlice frame = .ok update) : ∃ raw used,
    fromSlice (trimAscii frame) = some (raw, used) ∧ Sound raw update := by
  simp only [parse] at h
  obtain ⟨-, h⟩ := of_ite_error h
  cases hslice : fromSlice (trimAscii frame) with
  | none => simp [hslice] at h
  | some read =>
    obtain ⟨raw, used⟩ := read
    simp only [hslice] at h
    obtain ⟨-, h⟩ := of_ite_error h
    obtain ⟨-, h⟩ := of_ite_error h
    obtain ⟨-, h⟩ := of_ite_error h
    obtain ⟨hmood, h⟩ := of_ite_error h
    obtain ⟨halert, h⟩ := of_ite_error h
    obtain rfl := Except.ok.inj h
    refine ⟨raw, used, rfl, ?_⟩
    exact
      { mood := by simpa using hmood
        alert := by rw [not_not.mp halert]; exact beq_iff_eq
        duration := clamp_mem (by decide)
        text := fun text htext => clampText_some_spec htext
        silent := clampText_none_iff }

/-- Anything but blanks after the JSON value. -/
theorem parse_trailing (hslice : fromSlice (trimAscii frame) = some (raw, used))
    (htrailing : ∃ b ∈ (trimAscii frame).drop used, isAsciiWhitespace b = false) :
    parse fromSlice frame = .error .trailingBytes := by
  obtain ⟨b, hb, hvisible⟩ := htrailing
  have hsome : trimAscii frame ≠ [] := by
    intro hnil
    simp [hnil] at hb
  have hrest : trimAscii ((trimAscii frame).drop used) ≠ [] := by
    intro hnil
    have hblank := trim_eq_nil_iff.mp hnil b hb
    rw [hvisible] at hblank
    cases hblank
  simp only [parse, if_neg hsome, hslice, if_pos hrest]

/-- A parse depends on the trimmed frame only. -/
theorem parse_padded {front back : List UInt8} (hfront : ∀ b ∈ front, isAsciiWhitespace b = true)
    (hback : ∀ b ∈ back, isAsciiWhitespace b = true) :
    parse fromSlice (front ++ frame ++ back) = parse fromSlice frame := by
  have htrim : trimAscii (front ++ frame ++ back) = trimAscii frame :=
    trim_padded hfront hback frame
  simp only [parse, htrim]

/-- `parse` is sound and does not see padding, for any JSON reader. -/
theorem parse_sound (fromSlice : List UInt8 → Option (RawBehaviorUpdate × ℕ))
    (frame : List UInt8) :
    (∀ update, parse fromSlice frame = .ok update → ∃ raw used,
      fromSlice (trimAscii frame) = some (raw, used) ∧ Sound raw update) ∧
    (∀ raw used, fromSlice (trimAscii frame) = some (raw, used) →
      (∃ b ∈ (trimAscii frame).drop used, isAsciiWhitespace b = false) →
      parse fromSlice frame = .error .trailingBytes) ∧
    ∀ front back, (∀ b ∈ front, isAsciiWhitespace b = true) →
      (∀ b ∈ back, isAsciiWhitespace b = true) →
      parse fromSlice (front ++ frame ++ back) = parse fromSlice frame :=
  ⟨fun _ => parse_ok, fun _ _ => parse_trailing, fun _ _ => parse_padded⟩

/-- The line of a greeting, as the host sends it. -/
theorem parse_sound_greeting :
    ∃ raw used, fromSliceFlat (trimAscii (Python.encodeAscii greetingCommand.toJsonLine)) =
        some (raw, used) ∧
      Sound raw (updateOf greetingCommand (Protocol.parseBehaviorResponse_valid parse_greeting)) :=
  (parse_sound fromSliceFlat (Python.encodeAscii greetingCommand.toJsonLine)).1 _
    (parse_toJsonLine deserializesFlat_fromSliceFlat
      (Protocol.parseBehaviorResponse_valid parse_greeting))

end Hologotchi.Firmware
