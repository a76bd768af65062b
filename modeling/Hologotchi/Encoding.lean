import Hologotchi.Connection.Wire
import Hologotchi.Contract
import Hologotchi.Firmware.FlatDecoder

/-! The host's encoder against its own parser. -/
namespace Hologotchi.Protocol

open Python Library Fallible

/-- The `dict` that `payload` returns. -/
def BehaviorCommand.object (c : BehaviorCommand) : List (Str × Json) :=
  [(str "v", .int wireVersion), (str "kind", .str (str wireKind)),
    (str "mood", .str (str c.mood.name)), (str "animation", .str (str c.animation.name)),
    (str "text", .str (c.text.getD [])), (str "alert", .bool c.alert),
    (str "duration_ms", .int c.durationMs)]

/-- How `json.dumps` writes a value of such a `dict`. -/
def dumped : Json → FlatJson.Value
  | .bool b => .bool b
  | .int n => .int n
  | .str s => .str (FlatJson.escape s)
  | _ => .null

/-- `json.loads` reads back the object that `json.dumps` wrote, with a line break behind it. -/
def ReadsBack (dec : Decoder) (c : BehaviorCommand) : Prop :=
  dec.loads c.toJsonLine = .ok (.obj c.object)

variable {c : BehaviorCommand} {dec : Decoder} {response : Str}

theorem payload_eq_dumped (c : BehaviorCommand) :
    c.payload = c.object.map fun f => (f.1, dumped f.2) := by
  have hkind : FlatJson.escape (str wireKind) = str wireKind := by decide
  have hmood : FlatJson.escape (str c.mood.name) = str c.mood.name := by
    cases c.mood <;> decide
  have hanimation : FlatJson.escape (str c.animation.name) = str c.animation.name := by
    cases c.animation <;> decide
  simp only [BehaviorCommand.payload, BehaviorCommand.object, List.map_cons, List.map_nil, dumped,
    hkind, hmood, hanimation]

theorem toJsonLine_ascii (c : BehaviorCommand) : ∀ code ∈ c.toJsonLine, code < 128 := by
  intro code hcode
  rcases List.mem_append.mp hcode with hcode | hcode
  · have hrange := Connection.mem_print_payload hcode
    omega
  · obtain rfl := List.mem_singleton.mp hcode
    decide

theorem toJsonLine_newline (c : BehaviorCommand) :
    ∃ body, c.toJsonLine = body ++ [10] ∧ 10 ∉ body := by
  refine ⟨FlatJson.print c.payload, rfl, fun hmem => ?_⟩
  have hrange := Connection.mem_print_payload hmem
  omega

theorem textValue_object (h : c.Valid) : textValue c.object = .ok c.text := by
  have hget : Json.getD c.object "text" (.str []) = .str (c.text.getD []) := rfl
  rw [textValue, hget]
  cases htext : c.text with
  | none => rfl
  | some t =>
    have ht := h.text t htext
    simp only [Option.getD_some, ht.stripped, if_neg ht.ne_nil]

theorem validateText_object (h : c.Valid) : validateText c.object = .ok c.text := by
  refine bind_eq_ok.mpr ⟨c.text, textValue_object h, ?_⟩
  cases htext : c.text with
  | none => rfl
  | some t =>
    have ht := h.text t htext
    have hascii : isAscii t = true := by
      refine List.all_eq_true.mpr fun code hcode => ?_
      have hrange := ht.printable code hcode
      simp only [isPrintable, Bool.and_eq_true, decide_eq_true_eq] at hrange
      simp only [decide_eq_true_eq]
      omega
    have hprint : t.all isPrintable = true := List.all_eq_true.mpr ht.printable
    have hlength : ¬ textMaxLen < t.length := Nat.not_lt.mpr ht.length_le
    simp [hascii, hprint, hlength]
    rfl

theorem validateAnimation_object (c : BehaviorCommand) :
    validateAnimation c.object = .ok c.animation := by
  refine bind_eq_ok.mpr ⟨str c.animation.name, rfl, ?_⟩
  rw [Firmware.ofName_animation]
  rfl

theorem validateMood_object (c : BehaviorCommand) : validateMood c.object = .ok c.mood := by
  refine bind_eq_ok.mpr ⟨str c.mood.name, rfl, ?_⟩
  rw [Firmware.ofName_mood]
  rfl

theorem validateAlert_object (h : c.Valid) :
    validateAlert c.object c.animation = .ok c.alert := by
  have hget : Json.get c.object "alert" = .bool c.alert := rfl
  rw [validateAlert, hget]
  exact if_pos h.alert

theorem validateDuration_object (h : c.Valid) : validateDuration c.object = .ok c.durationMs := by
  have hget : Json.get c.object "duration_ms" = .int c.durationMs := rfl
  rw [validateDuration, hget]
  exact if_pos h.duration

theorem validateCommand_object (h : c.Valid) : validateCommand c.object = .ok c := by
  refine bind_eq_ok.mpr ⟨_, validateAnimation_object c, ?_⟩
  refine bind_eq_ok.mpr ⟨_, validateMood_object c, ?_⟩
  refine bind_eq_ok.mpr ⟨_, validateAlert_object h, ?_⟩
  refine bind_eq_ok.mpr ⟨_, validateDuration_object h, ?_⟩
  refine bind_eq_ok.mpr ⟨_, validateText_object h, ?_⟩
  rw [← h.mood]
  rfl

theorem validateBehaviorObject_object (h : c.Valid) :
    validateBehaviorObject (.obj c.object) false = .ok (c, none, none) := by
  have hversion : (Json.get c.object "v").equalsInt wireVersion = true := rfl
  have hkind : (Json.get c.object "kind").equalsStr (str wireKind) = true := rfl
  rw [validateBehaviorObject.eq_def]
  simp only [hversion, hkind]
  exact bind_eq_ok.mpr ⟨c, validateCommand_object h, rfl⟩

/-- A valid command comes back from its own line. -/
theorem parse_toJsonLine (h : c.Valid) (hloads : ReadsBack dec c) :
    parseBehaviorResponse dec c.toJsonLine = .ok c := by
  have hload : loadBehaviorObject dec c.toJsonLine = .ok (.obj c.object) := by
    rw [loadBehaviorObject, hloads]
  refine bind_eq_ok.mpr ⟨_, hload, ?_⟩
  rw [validateBehaviorObject_object h]

/-- What the parser accepts the encoder writes, and the parser reads that back. -/
theorem parser_encoder_agree (dec : Decoder) :
    (∀ response c, parseBehaviorResponse dec response = .ok c → c.Valid) ∧
      (∀ c : BehaviorCommand, c.Valid →
        (∀ code ∈ c.toJsonLine, code < 128) ∧
          (∃ body, c.toJsonLine = body ++ [10] ∧ 10 ∉ body) ∧
          (ReadsBack dec c → parseBehaviorResponse dec c.toJsonLine = .ok c)) ∧
      ∀ response c, parseBehaviorResponse dec response = .ok c → ReadsBack dec c →
        parseBehaviorResponse dec c.toJsonLine = .ok c := by
  refine ⟨fun response c h => parseBehaviorResponse_valid h, fun c h => ?_, ?_⟩
  · exact ⟨toJsonLine_ascii c, toJsonLine_newline c, parse_toJsonLine h⟩
  · intro response c h hloads
    exact parse_toJsonLine (parseBehaviorResponse_valid h) hloads

def eepyNap : BehaviorCommand where
  mood := .sleepy
  animation := .nap
  text := some (str "still eepy")
  alert := false
  durationMs := 9000

theorem parser_encoder_agree_nap :
    parseBehaviorResponse (replyDecoder eepyNap.toJsonLine (.obj eepyNap.object))
      eepyNap.toJsonLine = .ok eepyNap := by
  have hvalid : eepyNap.Valid := by
    refine ⟨rfl, rfl, ⟨by decide, by decide⟩, fun t ht => ?_⟩
    obtain rfl := Option.some.inj ht
    exact ⟨by decide, by decide, by decide, by decide⟩
  have hreads : ReadsBack (replyDecoder eepyNap.toJsonLine (.obj eepyNap.object)) eepyNap := by
    simp [ReadsBack, replyDecoder]
  obtain ⟨-, hencoded, hagain⟩ :=
    parser_encoder_agree (replyDecoder eepyNap.toJsonLine (.obj eepyNap.object))
  exact hagain _ eepyNap ((hencoded eepyNap hvalid).2.2 hreads) hreads

end Hologotchi.Protocol
