import Hologotchi.Firmware.Behavior
import Hologotchi.Contract

/-! What the firmware makes of a command the host sends. -/
namespace Hologotchi.Firmware

open Python Protocol Library FlatJson Trim

def textField : Option (HeaplessString rawTextCapacity) → Value
  | none => .null
  | some text => .str text.codes

/-- The flat object that a raw update reads from. -/
def RawBehaviorUpdate.fields (raw : RawBehaviorUpdate) : Fields :=
  [(str "v", .int raw.v.toNat), (str "kind", .str raw.kind.codes),
    (str "mood", .str (str raw.mood.name)), (str "animation", .str (str raw.animation.name)),
    (str "text", textField raw.text), (str "alert", .bool raw.alert),
    (str "duration_ms", .int raw.durationMs.toNat)]

/-- Every string is the inside of a JSON string. -/
def RawBehaviorUpdate.Escaped (raw : RawBehaviorUpdate) : Prop :=
  (∃ s, raw.kind.codes = escape s) ∧ ∀ text ∈ raw.text, ∃ s, text.codes = escape s

/-- `from_slice` without an unescape buffer: it reads a whole flat object, and a string is what
stands between its quotes. -/
def DeserializesFlat (fromSlice : List UInt8 → Option (RawBehaviorUpdate × ℕ)) : Prop :=
  ∀ raw : RawBehaviorUpdate, raw.Escaped →
    fromSlice (encodeAscii (print raw.fields)) = some (raw, (print raw.fields).length)

variable {fromSlice : List UInt8 → Option (RawBehaviorUpdate × ℕ)} {c : BehaviorCommand}
  {t : Str} {fs : Fields}

theorem printable_bounds (h : ∀ c ∈ t, isPrintable c = true) : ∀ c ∈ t, 32 ≤ c ∧ c ≤ 126 := by
  simpa [isPrintable] using h

theorem toNat_ofNat_printable {code : ℕ} (h : 32 ≤ code ∧ code ≤ 126) :
    (Char.ofNat code).toNat = code := by
  have hvalid : code.isValidChar := .inl (by omega)
  have haux : Char.ofNat code = Char.ofNatAux code hvalid := dif_pos hvalid
  rw [haux]
  rfl

theorem codes_ofNat (h : ∀ c ∈ t, 32 ≤ c ∧ c ≤ 126) :
    (t.map Char.ofNat).map Char.toNat = t := by
  have hid : t.map (Char.toNat ∘ Char.ofNat) = t.map id :=
    List.map_congr_left fun c hc => toNat_ofNat_printable (h c hc)
  rw [List.map_map, hid, List.map_id]

theorem oneByte_ofNat (h : ∀ c ∈ t, 32 ≤ c ∧ c ≤ 126) : OneByte (t.map Char.ofNat) := by
  intro ch hch
  obtain ⟨c, hc, rfl⟩ := List.mem_map.mp hch
  have hcode : (Char.ofNat c).val.toNat = c := toNat_ofNat_printable (h c hc)
  have hhigh := (h c hc).2
  apply Char.utf8Size_eq_one_iff.mpr
  rw [UInt32.le_iff_toNat_le, hcode]
  exact Nat.le_trans hhigh (by decide)

/-- The escaped text of a command, always present on the line. -/
def shownBody (c : BehaviorCommand) : Str := escape (c.text.getD [])

theorem text_bounds (h : c.Valid) : (∀ d ∈ c.text.getD [], 32 ≤ d ∧ d ≤ 126) ∧
    (c.text.getD []).length ≤ textMaxLen := by
  cases htext : c.text with
  | none => simp
  | some t =>
    have ht := h.text t htext
    exact ⟨printable_bounds ht.printable, ht.length_le⟩

theorem shownBody_fits (h : c.Valid) :
    utf8Len ((shownBody c).map Char.ofNat) ≤ rawTextCapacity := by
  obtain ⟨hprint, hlen⟩ := text_bounds h
  have hlong := length_escape_le hprint
  rw [shownBody, utf8Len_oneByte (oneByte_ofNat fun _ => escape_range), List.length_map,
    rawTextCapacity]
  rw [textMaxLen] at hlen
  omega

/-- What the firmware reads of a valid command. -/
def rawOf (c : BehaviorCommand) (h : c.Valid) : RawBehaviorUpdate where
  v := 1
  kind := ⟨"behavior".toList, by decide⟩
  mood := c.mood
  animation := c.animation
  text := some ⟨(shownBody c).map Char.ofNat, shownBody_fits h⟩
  alert := c.alert
  durationMs := UInt32.ofNat c.durationMs.toNat

theorem durationMs_rawOf (h : c.Valid) : ((rawOf c h).durationMs.toNat : ℤ) = c.durationMs := by
  obtain ⟨hlow, hhigh⟩ := h.duration
  rw [Protocol.minDurationMs] at hlow
  rw [Protocol.maxDurationMs] at hhigh
  have hsmall : (rawOf c h).durationMs.toNat = c.durationMs.toNat := by
    apply UInt32.toNat_ofNat_of_lt'
    rw [UInt32.size]
    omega
  omega

theorem codes_shownBody (c : BehaviorCommand) :
    ((shownBody c).map Char.ofNat).map Char.toNat = shownBody c :=
  codes_ofNat fun _ => escape_range

theorem payload_eq (h : c.Valid) : c.payload = (rawOf c h).fields := by
  have hduration := durationMs_rawOf h
  have hcodes := codes_shownBody c
  rw [BehaviorCommand.payload, RawBehaviorUpdate.fields, hduration]
  simp only [rawOf, textField, HeaplessString.codes, hcodes]
  rfl

theorem rawOf_escaped (h : c.Valid) : (rawOf c h).Escaped := by
  have hkind : str "behavior" = escape (str "behavior") := by decide
  refine ⟨⟨str "behavior", hkind⟩, ?_⟩
  intro text htext
  obtain rfl := Option.some.inj htext
  exact ⟨c.text.getD [], codes_shownBody c⟩

/-- A line without its newline has no blank at its ends. -/
theorem trimAscii_print {blanks : List UInt8} (hblanks : ∀ b ∈ blanks, isAsciiWhitespace b = true) :
    trimAscii (encodeAscii (print fs) ++ blanks) = encodeAscii (print fs) := by
  have hbytes : encodeAscii (print fs) = 123 :: encodeAscii (printFields fs) ++ [125] := by
    simp [print, encodeAscii]
  have htrimmed : Trimmed isAsciiWhitespace (encodeAscii (print fs)) := by
    rw [hbytes]
    constructor
    · intro b hb
      obtain rfl := Option.some.inj hb
      decide
    · intro b hb
      rw [List.getLast?_concat] at hb
      obtain rfl := Option.some.inj hb
      decide
  exact htrimmed.trim_append hblanks

theorem length_print_payload (h : c.Valid) : (print c.payload).length ≤ 255 := by
  obtain ⟨hprint, hlen⟩ := text_bounds h
  have htext : (escape (c.text.getD [])).length ≤ 48 := by
    have hlong := length_escape_le hprint
    rw [textMaxLen] at hlen
    omega
  have hmood : (str c.mood.name).length ≤ 7 := by
    cases c.mood <;> decide
  have hanimation : (str c.animation.name).length ≤ 11 := by
    cases c.animation <;> decide
  have halert : (printField (str "alert", .bool c.alert)).length ≤ 13 := by
    cases c.alert <;> decide
  have hduration : (printField (str "duration_ms", .int c.durationMs)).length ≤ 24 := by
    have hdigits : (decimal (rawOf c h).durationMs.toNat).length ≤ 10 :=
      decimal_length (rawOf c h).durationMs.toNat_lt
    have hkey : (str "duration_ms").length = 11 := by decide
    rw [← durationMs_rawOf h]
    simp only [printField, printValue, printInt, List.length_cons, List.length_append, hkey]
    omega
  have hversion : (printField (str "v", .int wireVersion)).length = 5 := by decide
  have hkeys : (str "kind").length = 4 ∧ (str wireKind).length = 8 ∧ (str "mood").length = 4 ∧
      (str "animation").length = 9 ∧ (str "text").length = 4 := by decide
  simp only [print, BehaviorCommand.payload, printFields, List.length_cons, List.length_append,
    length_printField_str, List.length_nil]
  omega

/-- The update that a valid command becomes. -/
def updateOf (c : BehaviorCommand) (h : c.Valid) : BehaviorUpdate where
  mood := c.mood
  animation := c.animation
  text := clampText (rawOf c h).text
  alert := c.alert
  durationMs := (rawOf c h).durationMs

/-- With its newline or without it, the line is accepted. -/
theorem parse_payload (hslice : DeserializesFlat fromSlice) (h : c.Valid) {blanks : List UInt8}
    (hblanks : ∀ b ∈ blanks, isAsciiWhitespace b = true) :
    parse fromSlice (encodeAscii (print c.payload) ++ blanks) = .ok (updateOf c h) := by
  have htrim : trimAscii (encodeAscii (print c.payload) ++ blanks) =
      encodeAscii (print c.payload) := trimAscii_print hblanks
  have hne : encodeAscii (print c.payload) ≠ [] := by simp [print, encodeAscii]
  have hread := hslice (rawOf c h) (rawOf_escaped h)
  rw [← payload_eq h] at hread
  have hrest : trimAscii ((encodeAscii (print c.payload)).drop (print c.payload).length) = [] := by
    rw [List.drop_of_length_le (by simp [encodeAscii])]
    rfl
  have hkind : (rawOf c h).kind.chars = "behavior".toList := rfl
  have hmood : moodMatchesAnimation (rawOf c h).mood (rawOf c h).animation = true :=
    moodMatchesAnimation_iff.mpr h.mood
  have halert : (rawOf c h).alert = ((rawOf c h).animation == .alert) := h.alert
  have hclamp : clamp (rawOf c h).durationMs minDurationMs maxDurationMs =
      (rawOf c h).durationMs := by
    have hduration := durationMs_rawOf h
    obtain ⟨hlow, hhigh⟩ := h.duration
    rw [Protocol.minDurationMs] at hlow
    rw [Protocol.maxDurationMs] at hhigh
    have hmin : minDurationMs.toNat = 1000 := rfl
    have hmax : maxDurationMs.toNat = 15000 := rfl
    apply clamp_eq_self
    · rw [UInt32.le_iff_toNat_le]
      omega
    · rw [UInt32.le_iff_toNat_le]
      omega
  simp only [parse, htrim, if_neg hne, hread, hrest, hkind, hmood, halert, hclamp, ne_eq,
    not_true_eq_false, Bool.not_true, Bool.false_eq_true, if_false]
  rw [updateOf, h.alert]
  rfl

theorem encodeAscii_toJsonLine (c : BehaviorCommand) :
    encodeAscii c.toJsonLine = encodeAscii (print c.payload) ++ [10] := by
  simp [BehaviorCommand.toJsonLine, encodeAscii]

theorem parse_toJsonLine (hslice : DeserializesFlat fromSlice) (h : c.Valid) :
    parse fromSlice (encodeAscii c.toJsonLine) = .ok (updateOf c h) := by
  have hnewline : ∀ b ∈ ([10] : List UInt8), isAsciiWhitespace b = true := by
    intro b hb
    obtain rfl := List.mem_singleton.mp hb
    rfl
  rw [encodeAscii_toJsonLine]
  exact parse_payload hslice h hnewline

theorem parse_frame (hslice : DeserializesFlat fromSlice) (h : c.Valid) :
    parse fromSlice (encodeAscii (print c.payload)) = .ok (updateOf c h) := by
  have hnone : ∀ b ∈ ([] : List UInt8), isAsciiWhitespace b = true := by simp
  have hframe := parse_payload hslice h hnone
  rwa [List.append_nil] at hframe

end Hologotchi.Firmware
