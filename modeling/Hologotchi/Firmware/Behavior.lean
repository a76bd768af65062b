import Hologotchi.Protocol
import Hologotchi.Library.Trim

/-! Behavior updates as the firmware reads them (`device/src/behavior.rs`). -/
namespace Hologotchi.Firmware

open Python Library Trim

def textCapacity : ℕ := 24
/-- Longest line the control socket accepts. -/
def frameCapacity : ℕ := 256
def minDurationMs : UInt32 := 1000
def maxDurationMs : UInt32 := 15000
def kindCapacity : ℕ := 16
def rawTextCapacity : ℕ := 96

/-- The length in UTF-8 bytes. -/
def utf8Len (chars : List Char) : ℕ := (chars.map Char.utf8Size).sum

/-- A `heapless::String`: characters whose bytes fit its capacity. -/
structure HeaplessString (capacity : ℕ) where
  chars : List Char
  fits : utf8Len chars ≤ capacity
  deriving DecidableEq

namespace HeaplessString

variable {n : ℕ}

def new : HeaplessString n := ⟨[], Nat.zero_le n⟩

/-- `push`: nothing when the character does not fit. -/
def push (s : HeaplessString n) (ch : Char) : Option (HeaplessString n) :=
  if h : utf8Len (s.chars ++ [ch]) ≤ n then some ⟨s.chars ++ [ch], h⟩ else none

/-- Push characters until one does not fit. -/
def pushWhile (s : HeaplessString n) : List Char → HeaplessString n
  | [] => s
  | ch :: rest =>
    match s.push ch with
    | some out => out.pushWhile rest
    | none => s

def codes (s : HeaplessString n) : Str := s.chars.map Char.toNat

end HeaplessString

/-- A validated behavior update. -/
structure BehaviorUpdate where
  mood : Mood
  animation : Animation
  text : Option (HeaplessString textCapacity)
  alert : Bool
  durationMs : UInt32

structure RawBehaviorUpdate where
  v : UInt8
  kind : HeaplessString kindCapacity
  mood : Mood
  animation : Animation
  text : Option (HeaplessString rawTextCapacity)
  alert : Bool
  durationMs : UInt32

inductive ParseError
  | empty
  | json
  | trailingBytes
  | unsupportedVersion
  | wrongKind
  | mismatchedMood
  | invalidAlertFlag
  deriving DecidableEq, Repr

def isAsciiWhitespace (b : UInt8) : Bool :=
  b == 0x20 || b == 0x09 || b == 0x0a || b == 0x0c || b == 0x0d

def trimAscii (bytes : List UInt8) : List UInt8 := trim isAsciiWhitespace bytes

def moodMatchesAnimation : Mood → Animation → Bool
  | .calm, .idle | .calm, .blink => true
  | .curious, .lookAround | .curious, .confused | .curious, .walk => true
  | .happy, .happy | .happy, .play | .happy, .excited => true
  | .sleepy, .sleepy | .sleepy, .nap => true
  | .worried, .worried => true
  | .alert, .alert => true
  | _, _ => false

/-- `char::is_whitespace`. -/
def isWhitespace (ch : Char) : Bool :=
  let c := ch.toNat
  (9 ≤ c && c ≤ 13) || c == 32 || c == 0x85 || c == 0xa0 || c == 0x1680 ||
    (0x2000 ≤ c && c ≤ 0x200a) || c == 0x2028 || c == 0x2029 || c == 0x202f || c == 0x205f ||
    c == 0x3000

def clampText (raw : Option (HeaplessString rawTextCapacity)) :
    Option (HeaplessString textCapacity) :=
  match raw with
  | none => none
  | some raw =>
    let out := HeaplessString.new.pushWhile (trim isWhitespace raw.chars)
    if out.chars = [] then none else some out

/-- `Ord::clamp`. -/
def clamp (x low high : UInt32) : UInt32 := if x < low then low else if high < x then high else x

/-- `parse`, over `serde_json_core::from_slice`, which gives the value and how much it read. -/
def parse (fromSlice : List UInt8 → Option (RawBehaviorUpdate × ℕ)) (frame : List UInt8) :
    Except ParseError BehaviorUpdate :=
  let trimmed := trimAscii frame
  if trimmed = [] then .error .empty
  else match fromSlice trimmed with
    | none => .error .json
    | some (raw, used) =>
      if trimAscii (trimmed.drop used) ≠ [] then .error .trailingBytes
      else if raw.v ≠ 1 then .error .unsupportedVersion
      else if raw.kind.chars ≠ "behavior".toList then .error .wrongKind
      else if !moodMatchesAnimation raw.mood raw.animation then .error .mismatchedMood
      else if raw.alert ≠ (raw.animation == .alert) then .error .invalidAlertFlag
      else .ok {
        mood := raw.mood
        animation := raw.animation
        text := clampText raw.text
        alert := raw.alert
        durationMs := clamp raw.durationMs minDurationMs maxDurationMs }

variable {n : ℕ} {chars : List Char} {bytes : List UInt8}

theorem moodMatchesAnimation_iff {m : Mood} {a : Animation} :
    moodMatchesAnimation m a = true ↔ m = a.toMood := by
  cases m <;> cases a <;> decide

theorem clamp_eq_self {x low high : UInt32} (hlow : low ≤ x) (hhigh : x ≤ high) :
    clamp x low high = x := by
  rw [clamp, if_neg (UInt32.not_lt.mpr hlow), if_neg (UInt32.not_lt.mpr hhigh)]

/-- Every character is one byte. -/
def OneByte (chars : List Char) : Prop := ∀ ch ∈ chars, ch.utf8Size = 1

theorem utf8Len_oneByte (h : OneByte chars) : utf8Len chars = chars.length := by
  induction chars with
  | nil => rfl
  | cons ch rest ih =>
    obtain ⟨hch, hrest⟩ := List.forall_mem_cons.mp h
    have hlen : utf8Len rest = rest.length := ih hrest
    rw [utf8Len] at hlen ⊢
    rw [List.map_cons, List.sum_cons, hch, hlen, List.length_cons, Nat.add_comm]

theorem pushWhile_chars (s : HeaplessString n) (hs : OneByte s.chars) (h : OneByte chars) :
    (s.pushWhile chars).chars = (s.chars ++ chars).take n := by
  have hfits := s.fits
  rw [utf8Len_oneByte hs] at hfits
  induction chars generalizing s with
  | nil =>
    rw [List.append_nil, List.take_of_length_le hfits]
    rfl
  | cons ch rest ih =>
    obtain ⟨hch, hrest⟩ := List.forall_mem_cons.mp h
    have hmore : OneByte (s.chars ++ [ch]) := by
      intro c hc
      rcases List.mem_append.mp hc with hc | hc
      · exact hs c hc
      · obtain rfl := List.mem_singleton.mp hc
        exact hch
    have hlen : utf8Len (s.chars ++ [ch]) = s.chars.length + 1 := by
      rw [utf8Len_oneByte hmore, List.length_append, List.length_singleton]
    by_cases hroom : utf8Len (s.chars ++ [ch]) ≤ n
    · have hpush : s.push ch = some ⟨s.chars ++ [ch], hroom⟩ := dif_pos hroom
      rw [hlen] at hroom
      have hnext := ih ⟨s.chars ++ [ch], by omega⟩ hmore hrest (by simpa using hroom)
      rw [HeaplessString.pushWhile, hpush, hnext, List.append_assoc]
      rfl
    · have hpush : s.push ch = none := dif_neg hroom
      have hfull : s.chars.length = n := by omega
      rw [HeaplessString.pushWhile, hpush, List.take_left' hfull]

/-- Trimmed text of one-byte characters is cut at the capacity. -/
theorem clampText_some {raw : HeaplessString rawTextCapacity} (h : OneByte raw.chars)
    (hne : raw.chars ≠ []) (htrim : Trimmed isWhitespace raw.chars) :
    ∃ out, clampText (some raw) = some out ∧ out.chars = raw.chars.take textCapacity := by
  have hchars : ((HeaplessString.new : HeaplessString textCapacity).pushWhile
      (trim isWhitespace raw.chars)).chars = raw.chars.take textCapacity := by
    have hnone : OneByte (HeaplessString.new : HeaplessString textCapacity).chars := by
      intro c hc
      cases hc
    rw [htrim.trim_eq, pushWhile_chars _ hnone h]
    rfl
  have hsome : raw.chars.take textCapacity ≠ [] := by
    intro hnil
    rcases List.take_eq_nil_iff.mp hnil with hzero | hnil
    · cases hzero
    · exact hne hnil
  refine ⟨_, ?_, hchars⟩
  simp only [clampText, hchars, if_neg hsome]

end Hologotchi.Firmware
