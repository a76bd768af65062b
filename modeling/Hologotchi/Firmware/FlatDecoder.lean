import Hologotchi.Firmware.Downlink

/-! A decoder that reads flat objects the way the firmware's JSON library does. -/
namespace Hologotchi.Firmware

open Python Protocol Library FlatJson

def HeaplessString.ofCodes (n : ℕ) (body : List ℕ) : Option (HeaplessString n) :=
  if h : utf8Len (body.map Char.ofNat) ≤ n then some ⟨body.map Char.ofNat, h⟩ else none

/-- The text between the quotes of a field. -/
def bodyOf (fs : Fields) (key : String) : Option (List ℕ) :=
  match fs.lookup (str key) with
  | some (.str body) => some body
  | _ => none

def intOf (fs : Fields) (key : String) : Option ℕ :=
  match fs.lookup (str key) with
  | some (.int n) => if 0 ≤ n then some n.toNat else none
  | _ => none

def textOf (fs : Fields) : Option (Option (HeaplessString rawTextCapacity)) :=
  match fs.lookup (str "text") with
  | some (.str body) => (HeaplessString.ofCodes rawTextCapacity body).map some
  | some .null | none => some none
  | _ => none

/-- Read the fields of a raw update. -/
def readFields (fs : Fields) : Option RawBehaviorUpdate := do
  let v ← intOf fs "v"
  let kind ← (bodyOf fs "kind").bind (HeaplessString.ofCodes kindCapacity)
  let mood ← (bodyOf fs "mood").bind Mood.ofName
  let animation ← (bodyOf fs "animation").bind Animation.ofName
  let text ← textOf fs
  let alert ← match fs.lookup (str "alert") with
    | some (.bool b) => some b
    | _ => none
  let durationMs ← intOf fs "duration_ms"
  if v < 2 ^ 8 ∧ durationMs < 2 ^ 32 then
    some { v := UInt8.ofNat v, kind, mood, animation, text, alert,
           durationMs := UInt32.ofNat durationMs }
  else none

/-- A decoder that takes strings as they stand between the quotes. -/
def fromSliceFlat (bytes : List UInt8) : Option (RawBehaviorUpdate × ℕ) := do
  let (fs, rest) ← FlatJson.parse (bytes.map UInt8.toNat)
  let raw ← readFields fs
  some (raw, bytes.length - rest.length)

theorem ofCodes_codes {n : ℕ} (s : HeaplessString n) :
    HeaplessString.ofCodes n s.codes = some s := by
  have hchars : s.codes.map Char.ofNat = s.chars := by
    rw [HeaplessString.codes, List.map_map]
    have hid : s.chars.map (Char.ofNat ∘ Char.toNat) = s.chars.map id :=
      List.map_congr_left fun c _ => Char.ofNat_toNat c
    rw [hid, List.map_id]
  have hfits : utf8Len (s.codes.map Char.ofNat) ≤ n := by
    rw [hchars]
    exact s.fits
  rw [HeaplessString.ofCodes, dif_pos hfits]
  simp only [hchars]

theorem ofName_mood (m : Mood) : Mood.ofName (str m.name) = some m := by
  cases m <;> decide

theorem ofName_animation (a : Animation) : Animation.ofName (str a.name) = some a := by
  cases a <;> decide

theorem textOf_fields (raw : RawBehaviorUpdate) : textOf raw.fields = some raw.text := by
  have hlookup : raw.fields.lookup (str "text") = some (textField raw.text) := rfl
  rw [textOf, hlookup]
  cases raw.text with
  | none => rfl
  | some text => simp only [textField, ofCodes_codes, Option.map_some]

theorem readFields_fields (raw : RawBehaviorUpdate) : readFields raw.fields = some raw := by
  have hv : intOf raw.fields "v" = some raw.v.toNat := rfl
  have hkind : bodyOf raw.fields "kind" = some raw.kind.codes := rfl
  have hmood : bodyOf raw.fields "mood" = some (str raw.mood.name) := rfl
  have hanimation : bodyOf raw.fields "animation" = some (str raw.animation.name) := rfl
  have halert : raw.fields.lookup (str "alert") = some (.bool raw.alert) := rfl
  have hduration : intOf raw.fields "duration_ms" = some raw.durationMs.toNat := rfl
  simp [readFields, hv, hkind, hmood, hanimation, textOf_fields, halert, hduration,
    ofCodes_codes, ofName_mood, ofName_animation]
  exact ⟨raw.v.toNat_lt, raw.durationMs.toNat_lt⟩

theorem keys_ok {key : String} (h : key ∈ allowedFields) :
    bodyOk (str key) = true ∧ Ascii (str key) := by
  revert key
  simp only [Ascii]
  decide

theorem escaped_ok {body s : Str} (h : body = escape s) :
    (Value.str body).Ok ∧ (Value.str body).AsciiBody := by
  subst h
  exact ⟨bodyOk_escape s, ascii_escape s⟩

/-- The strings of the object are ASCII and can stand between quotes. -/
theorem fields_ok {raw : RawBehaviorUpdate} (h : raw.Escaped) : ∀ f ∈ raw.fields,
    (bodyOk f.1 = true ∧ Ascii f.1) ∧ f.2.Ok ∧ f.2.AsciiBody := by
  obtain ⟨⟨kind, hkind⟩, htext⟩ := h
  have hmood : str raw.mood.name = escape (str raw.mood.name) := by
    cases raw.mood <;> decide
  have hanimation : str raw.animation.name = escape (str raw.animation.name) := by
    cases raw.animation <;> decide
  intro f hf
  simp only [RawBehaviorUpdate.fields, List.mem_cons, List.not_mem_nil, or_false] at hf
  rcases hf with rfl | rfl | rfl | rfl | rfl | rfl | rfl
  · exact ⟨keys_ok (by decide), trivial, trivial⟩
  · exact ⟨keys_ok (by decide), escaped_ok hkind⟩
  · exact ⟨keys_ok (by decide), escaped_ok hmood⟩
  · exact ⟨keys_ok (by decide), escaped_ok hanimation⟩
  · refine ⟨keys_ok (by decide), ?_⟩
    cases hraw : raw.text with
    | none => exact ⟨trivial, trivial⟩
    | some text =>
      obtain ⟨s, hs⟩ := htext text hraw
      exact escaped_ok hs
  · exact ⟨keys_ok (by decide), trivial, trivial⟩
  · exact ⟨keys_ok (by decide), trivial, trivial⟩

theorem deserializesFlat_fromSliceFlat : DeserializesFlat fromSliceFlat := by
  intro raw h
  have hfields := fields_ok h
  have hok : FlatJson.Ok raw.fields := by
    intro f hf
    exact ⟨(hfields f hf).1.1, (hfields f hf).2.1⟩
  have hascii : ∀ f ∈ raw.fields, Ascii f.1 ∧ f.2.AsciiBody :=
    fun f hf => ⟨(hfields f hf).1.2, (hfields f hf).2.2⟩
  have hbytes : (encodeAscii (print raw.fields)).map UInt8.toNat = print raw.fields :=
    toNat_encodeAscii (ascii_print hascii)
  have hlen : (encodeAscii (print raw.fields)).length = (print raw.fields).length := by
    simp [encodeAscii]
  have hparse : FlatJson.parse (print raw.fields ++ []) = some (raw.fields, []) := parse_print hok
  rw [List.append_nil] at hparse
  simp only [fromSliceFlat, hbytes, hparse, hlen, Option.bind_eq_bind, Option.bind_some,
    readFields_fields, List.length_nil, Nat.sub_zero]

end Hologotchi.Firmware
