import Hologotchi.Touch.Classifier
import Hologotchi.Python

/-! The uplink frame of a gesture (`encode_input_frame` in `device/touch/src/lib.rs`). -/
namespace Hologotchi.Touch

open Python Library FlatJson

/-- Longest uplink frame the firmware builds. -/
def inputFrameCapacity : ℕ := 96

/-- `heapless::String::write_str` of ASCII text: all of it, or an error. -/
def writeStr (line s : Str) : Option Str :=
  if line.length + s.length ≤ inputFrameCapacity then some (line ++ s) else none

/-- The text of a hold frame before its duration. -/
def holdHead : Str :=
  str "\x7b\"v\":1,\"kind\":\"input\",\"source\":\"touch\",\"gesture\":\"hold\",\"duration_ms\":"

def encodeInputFrame (gesture : Gesture) : Option (List UInt8) :=
  Option.map encodeAscii <|
    match gesture with
    | .tap =>
      writeStr [] (str "\x7b\"v\":1,\"kind\":\"input\",\"source\":\"touch\",\"gesture\":\"tap\"\x7d\n")
    | .doubleTap =>
      writeStr []
        (str "\x7b\"v\":1,\"kind\":\"input\",\"source\":\"touch\",\"gesture\":\"doubletap\"\x7d\n")
    | .hold durationMs => do
      -- `writeln!` writes the pieces of its format one after the other.
      let line ← writeStr [] holdHead
      let line ← writeStr line (decimal durationMs.toNat)
      writeStr line (str "\x7d\n")

namespace Gesture

def name : Gesture → String
  | .tap => "tap"
  | .doubleTap => "doubletap"
  | .hold _ => "hold"

def durationMs : Gesture → Option ℤ
  | .hold d => some d.toNat
  | _ => none

/-- The flat object the frame denotes. -/
def inputFields (gesture : Gesture) : Fields :=
  [(str "v", .int 1), (str "kind", .str (str "input")), (str "source", .str (str "touch")),
    (str "gesture", .str (str gesture.name))] ++
  (gesture.durationMs.map fun d => (str "duration_ms", Value.int d)).toList

end Gesture

variable {gesture : Gesture} {c : ℕ}

theorem writeStr_eq_some {line s : Str} (h : line.length + s.length ≤ inputFrameCapacity) :
    writeStr line s = some (line ++ s) := if_pos h

theorem holdHead_eq : holdHead = 123 :: (printField (str "v", .int 1) ++
    44 :: (printField (str "kind", .str (str "input")) ++
    44 :: (printField (str "source", .str (str "touch")) ++
    44 :: (printField (str "gesture", .str (str "hold")) ++
    44 :: 34 :: (str "duration_ms" ++ [34, 58]))))) := by decide +kernel

theorem print_hold (d : UInt32) : print (Gesture.hold d).inputFields =
    holdHead ++ decimal d.toNat ++ [125] := by
  have hlast : printField (str "duration_ms", .int d.toNat) =
      34 :: (str "duration_ms" ++ [34, 58]) ++ decimal d.toNat := by
    simp [printField, printValue, printInt]
  rw [holdHead_eq]
  simp only [print, Gesture.inputFields, Gesture.name, Gesture.durationMs, Option.map_some,
    Option.toList_some, List.cons_append, List.nil_append, printFields, hlast, List.append_assoc]

theorem holdHead_length : holdHead.length = 70 := by decide +kernel

/-- Every frame fits, and is the compact text of its object on a line. -/
theorem encodeInputFrame_eq (gesture : Gesture) :
    encodeInputFrame gesture = some (encodeAscii (print gesture.inputFields ++ [10])) ∧
      (print gesture.inputFields ++ [10]).length ≤ inputFrameCapacity := by
  cases gesture with
  | tap => decide +kernel
  | doubleTap => decide +kernel
  | hold d =>
    have hdigits : (decimal d.toNat).length ≤ 10 := decimal_length d.toNat_lt
    have hend : (str "\x7d\n").length = 2 := by decide
    have hhead := holdHead_length
    have hfirst : writeStr [] holdHead = some holdHead := by
      apply writeStr_eq_some
      rw [hhead]
      decide
    have hsecond : writeStr holdHead (decimal d.toNat) = some (holdHead ++ decimal d.toNat) := by
      apply writeStr_eq_some
      rw [inputFrameCapacity]
      omega
    have hthird : writeStr (holdHead ++ decimal d.toNat) (str "\x7d\n") =
        some (holdHead ++ decimal d.toNat ++ str "\x7d\n") := by
      apply writeStr_eq_some
      rw [inputFrameCapacity, List.length_append]
      omega
    have hline : print (Gesture.hold d).inputFields ++ [10] =
        holdHead ++ decimal d.toNat ++ str "\x7d\n" := by
      rw [print_hold, List.append_assoc _ [125]]
      rfl
    rw [hline]
    constructor
    · simp [encodeInputFrame, hfirst, hsecond, hthird]
    · rw [inputFrameCapacity, List.length_append, List.length_append]
      omega

/-- The text of the object has no line break, space or non-ASCII code point. -/
theorem inputFields_plain (h : c ∈ print gesture.inputFields) : 33 ≤ c ∧ c ≤ 126 := by
  cases gesture with
  | tap => revert c; decide +kernel
  | doubleTap => revert c; decide +kernel
  | hold d =>
    rw [print_hold, List.mem_append, List.mem_append] at h
    rcases h with (h | h) | h
    · revert c
      decide +kernel
    · have hdigit := decimal_isDigit h
      simp only [isDigit, Bool.and_eq_true, decide_eq_true_eq] at hdigit
      omega
    · revert c
      decide +kernel

theorem inputFields_ok (gesture : Gesture) : FlatJson.Ok gesture.inputFields := by
  have hkey : bodyOk (str "gesture") = true ∧ bodyOk (str "duration_ms") = true := by decide
  have hname : bodyOk (str gesture.name) = true := by
    cases gesture <;> simp only [Gesture.name] <;> decide
  intro f hf
  simp only [Gesture.inputFields, List.mem_append, List.mem_cons, List.not_mem_nil, or_false,
    Option.mem_toList, Option.map_eq_some_iff] at hf
  rcases hf with (rfl | rfl | rfl | rfl) | ⟨d, -, rfl⟩
  · exact ⟨by decide, trivial⟩
  · exact ⟨by decide, by simp only [Value.Ok]; decide⟩
  · exact ⟨by decide, by simp only [Value.Ok]; decide⟩
  · exact ⟨hkey.1, hname⟩
  · exact ⟨hkey.2, trivial⟩

end Hologotchi.Touch
