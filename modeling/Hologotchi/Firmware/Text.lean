import Hologotchi.Firmware.FlatDecoder

/-! The text the firmware shows against the text the host sent. -/
namespace Hologotchi.Firmware

open Python Protocol Library FlatJson Trim

variable {fromSlice : List UInt8 → Option (RawBehaviorUpdate × ℕ)} {c : BehaviorCommand}
  {s t : Str}

/-- No character of the text needs an escape. -/
def Plain (t : Str) : Prop := ∀ c ∈ t, c ≠ 34 ∧ c ≠ 92

/-- The escapes of the text cannot be seen: there are none, or the text takes the whole bubble and
from its first escape on is all backslashes, which the doubled ones pass for. -/
def HidesEscapes (t : Str) : Prop :=
  ∃ s k, t = s ++ List.replicate k 92 ∧ Plain s ∧ (k = 0 ∨ t.length = textMaxLen)

theorem escape_append (s t : Str) : escape (s ++ t) = escape s ++ escape t := List.flatMap_append

theorem escape_cons (d : ℕ) (t : Str) : escape (d :: t) = escapeChar d ++ escape t := rfl

theorem escape_backslashes (k : ℕ) :
    escape (List.replicate k 92) = List.replicate (2 * k) 92 := by
  induction k with
  | zero => rfl
  | succ k ih =>
    rw [List.replicate_succ, escape_cons, ih, Nat.mul_succ, List.replicate_succ,
      List.replicate_succ]
    rfl

/-- With a backslash pending in front, only backslashes come out as they went in. -/
theorem eq_backslashes {j : ℕ}
    (h : (List.replicate (j + 1) 92 ++ escape t).take t.length = t) :
    t = List.replicate t.length 92 := by
  induction t generalizing j with
  | nil => rfl
  | cons d t ih =>
    rw [List.replicate_succ, List.cons_append, List.length_cons, List.take_succ_cons] at h
    obtain ⟨rfl, htail⟩ := List.cons.inj h
    have hpending : List.replicate j 92 ++ escape (92 :: t) =
        List.replicate (j + 2) 92 ++ escape t := by
      rw [escape_cons, ← List.append_assoc]
      congr 1
      rw [List.replicate_add]
      rfl
    rw [hpending] at htail
    rw [List.length_cons, List.replicate_succ, ← ih htail]

theorem escapeChar_ne_nil (d : ℕ) : escapeChar d ≠ [] :=
  escapeChar_cases (P := (· ≠ [])) (fun _ _ => List.cons_ne_nil _ _)
    (fun _ _ _ => List.cons_ne_nil _ _) (fun _ => List.cons_ne_nil _ _)
    (fun _ _ => List.cons_ne_nil _ _)

theorem length_le_escape (t : Str) : t.length ≤ (escape t).length := by
  induction t with
  | nil => exact Nat.le_refl 0
  | cons d t ih =>
    have hchar := List.length_pos_of_ne_nil (escapeChar_ne_nil d)
    rw [escape_cons, List.length_append, List.length_cons]
    omega

/-- A text that starts with an escape comes out as it went in only if it is all backslashes and
fills the room. -/
theorem take_escape_special {d m : ℕ} (hd : d = 34 ∨ d = 92) (hlen : (d :: t).length ≤ m)
    (h : (escape (d :: t)).take m = d :: t) : d :: t = List.replicate m 92 := by
  obtain ⟨m, rfl⟩ : ∃ k, m = k + 1 := ⟨m - 1, by simp at hlen; omega⟩
  rcases hd with rfl | rfl
  · rw [escape_cons] at h
    cases h
  · rw [escape_cons] at h
    obtain ⟨-, htail⟩ := List.cons.inj h
    have htake : (List.replicate 1 92 ++ escape t).take m = t := htail
    have hroom : m = t.length := by
      have hlength := congrArg List.length htake
      have hlong := length_le_escape t
      rw [List.length_take, List.length_append, List.length_replicate] at hlength
      rw [List.length_cons] at hlen
      omega
    subst hroom
    rw [List.replicate_succ, ← eq_backslashes htake]

/-- Up to its first escape a text is plain. -/
theorem exists_plain_prefix (t : Str) : ∃ s u, t = s ++ u ∧ Plain s ∧
    ∀ d ∈ u.head?, d = 34 ∨ d = 92 := by
  let plain : ℕ → Bool := fun c => c ≠ 34 ∧ c ≠ 92
  refine ⟨t.takeWhile plain, t.dropWhile plain, List.takeWhile_append_dropWhile.symm, ?_, ?_⟩
  · intro c hc
    simpa [plain] using List.mem_takeWhile_imp hc
  · intro d hd
    have hnot := List.head?_dropWhile_not plain t
    rw [Option.mem_def.mp hd] at hnot
    have hspecial : d ≠ 34 → d = 92 := by simpa [plain] using hnot
    by_cases hquote : d = 34
    · exact .inl hquote
    · exact .inr (hspecial hquote)

theorem hidesEscapes_of_take_eq (ht : ∀ c ∈ t, 32 ≤ c ∧ c ≤ 126) (hlen : t.length ≤ textMaxLen)
    (h : (escape t).take textMaxLen = t) : HidesEscapes t := by
  obtain ⟨s, u, rfl, hplain, hfirst⟩ := exists_plain_prefix t
  cases u with
  | nil => exact ⟨s, 0, rfl, hplain, .inl rfl⟩
  | cons d u =>
    have hs : escape s = s := by
      apply escape_plain hplain
      intro c hc
      exact ht c (List.mem_append_left _ hc)
    rw [List.length_append] at hlen
    rw [escape_append, hs, List.take_append, List.take_of_length_le (by omega)] at h
    have htail := List.append_cancel_left h
    have hall := take_escape_special (hfirst d rfl) (by omega) htail
    refine ⟨s, textMaxLen - s.length, ?_, hplain, .inr ?_⟩
    · rw [hall]
    · rw [hall, List.length_append, List.length_replicate]
      omega

theorem take_eq_of_hidesEscapes (ht : ∀ c ∈ t, 32 ≤ c ∧ c ≤ 126) (hlen : t.length ≤ textMaxLen)
    (h : HidesEscapes t) : (escape t).take textMaxLen = t := by
  obtain ⟨s, k, rfl, hplain, hk⟩ := h
  have hs : escape s = s := by
    apply escape_plain hplain
    intro c hc
    exact ht c (List.mem_append_left _ hc)
  rw [List.length_append, List.length_replicate] at hlen hk
  rw [escape_append, hs, escape_backslashes, List.take_append,
    List.take_of_length_le (by omega), List.take_replicate]
  congr 2
  omega

theorem head_escape {d : ℕ} (h : 32 ≤ d ∧ d ≤ 126) (t : Str) :
    ∃ e rest, escape (d :: t) = e :: rest ∧ (e = d ∨ e = 92) := by
  rw [escape_cons]
  rcases escapeChar_ends h with hends | hends
  · rw [hends]
    exact ⟨d, escape t, rfl, .inl rfl⟩
  · rw [hends]
    exact ⟨92, d :: escape t, rfl, .inr rfl⟩

theorem last_escape {d : ℕ} (h : 32 ≤ d ∧ d ≤ 126) (t : Str) :
    ∃ rest, escape (t ++ [d]) = rest ++ [d] := by
  rw [escape_append, escape_cons]
  rcases escapeChar_ends h with hends | hends
  · exact ⟨escape t, by simp [hends, escape]⟩
  · exact ⟨escape t ++ [92], by simp [hends, escape]⟩

theorem isWhitespace_ofNat {d : ℕ} (h : 33 ≤ d ∧ d ≤ 126) :
    isWhitespace (Char.ofNat d) = false := by
  have hcode : (Char.ofNat d).toNat = d := toNat_ofNat_printable ⟨by omega, h.2⟩
  simp [isWhitespace, hcode]
  omega

theorem visible_of_not_space {d : ℕ} (h : isPrintable d = true) (hspace : isSpace d = false) :
    33 ≤ d ∧ d ≤ 126 := by
  simp [isPrintable] at h
  simp [isSpace] at hspace
  omega

/-- The firmware has nothing to trim off the text of a valid command. -/
theorem trimmed_escape (h : Showable t) : Trimmed isWhitespace ((escape t).map Char.ofNat) := by
  have htrimmed : Trimmed isSpace t := by
    have hstrip := trimmed_trim isSpace t
    rwa [show trim isSpace t = t from h.stripped] at hstrip
  constructor
  · intro ch hch
    cases t with
    | nil => cases hch
    | cons d u =>
      have hd := visible_of_not_space (h.printable d (by simp)) (htrimmed.first d (by simp))
      obtain ⟨e, rest, hrest, he⟩ := head_escape ⟨by omega, hd.2⟩ u
      rw [hrest] at hch
      obtain rfl := Option.some.inj hch
      rcases he with rfl | rfl
      · exact isWhitespace_ofNat hd
      · exact isWhitespace_ofNat (by omega)
  · intro ch hch
    cases t using List.reverseRecOn with
    | nil => cases hch
    | append_singleton u d =>
      have hd := visible_of_not_space (h.printable d (by simp)) (htrimmed.last d (by simp))
      obtain ⟨rest, hrest⟩ := last_escape ⟨by omega, hd.2⟩ u
      rw [hrest, List.map_append, List.map_singleton, List.getLast?_concat] at hch
      obtain rfl := Option.some.inj hch
      exact isWhitespace_ofNat hd

theorem codes_updateOf (h : c.Valid) :
    (updateOf c h).text.map HeaplessString.codes =
      c.text.map fun t => (escape t).take textMaxLen := by
  cases htext : c.text with
  | none =>
    have hbody : (shownBody c).map Char.ofNat = [] := by simp [shownBody, htext, escape]
    simp [updateOf, rawOf, clampText, hbody, trim, HeaplessString.new, HeaplessString.pushWhile]
  | some t =>
    have ht := h.text t htext
    have hprint : ∀ d ∈ escape t, 32 ≤ d ∧ d ≤ 126 := fun _ => escape_range
    have hbody : (rawOf c h).text.map (·.chars) = some ((escape t).map Char.ofNat) := by
      simp [rawOf, shownBody, htext]
    obtain ⟨raw, hraw, hchars⟩ := Option.map_eq_some_iff.mp hbody
    have hne : raw.chars ≠ [] := by
      intro hnil
      have hlong := length_le_escape t
      rw [hchars] at hnil
      rw [List.map_eq_nil_iff.mp hnil] at hlong
      exact ht.ne_nil (List.length_eq_zero_iff.mp (Nat.le_zero.mp hlong))
    have hone : OneByte raw.chars := by
      rw [hchars]
      exact oneByte_ofNat hprint
    have htrim : Trimmed isWhitespace raw.chars := by
      rw [hchars]
      exact trimmed_escape ht
    obtain ⟨out, hout, htake⟩ := clampText_some hone hne htrim
    have hcodes : out.codes = (escape t).take textMaxLen := by
      rw [HeaplessString.codes, htake, hchars, List.map_take, codes_ofNat hprint]
      rfl
    rw [updateOf, hraw, hout, Option.map_some, Option.map_some, hcodes]

/-- The text arrives as it was sent exactly when it hides its escapes. -/
theorem text_arrives_iff (h : c.Valid) :
    (updateOf c h).text.map HeaplessString.codes = c.text ↔ ∀ t ∈ c.text, HidesEscapes t := by
  rw [codes_updateOf h]
  cases htext : c.text with
  | none => simp
  | some t =>
    have ht := h.text t htext
    have hprint := printable_bounds ht.printable
    have hiff : (escape t).take textMaxLen = t ↔ HidesEscapes t :=
      ⟨hidesEscapes_of_take_eq hprint ht.length_le, take_eq_of_hidesEscapes hprint ht.length_le⟩
    simpa using hiff

/-- What the parser returns is shown as sent exactly when its text hides its escapes. -/
theorem text_round_trip_iff (hslice : DeserializesFlat fromSlice) {dec : Decoder} {response : Str}
    (h : parseBehaviorResponse dec response = .ok c) :
    (∃ update, parse fromSlice (encodeAscii c.toJsonLine) = .ok update ∧
      update.text.map HeaplessString.codes = c.text) ↔ ∀ t ∈ c.text, HidesEscapes t := by
  have hvalid := parseBehaviorResponse_valid h
  rw [parse_toJsonLine hslice hvalid, ← text_arrives_iff hvalid]
  constructor
  · rintro ⟨update, hupdate, htext⟩
    obtain rfl := Except.ok.inj hupdate
    exact htext
  · intro htext
    exact ⟨_, rfl, htext⟩

/-- A model output whose text quotes something. -/
def greeting : Str :=
  str ("\x7b\"v\":1,\"kind\":\"behavior\",\"mood\":\"happy\",\"animation\":\"happy\"," ++
    "\"text\":\"say \\\"hi\\\"\",\"alert\":false,\"duration_ms\":4000\x7d")

def greetingObject : Json :=
  .obj [(str "v", .int 1), (str "kind", .str (str "behavior")), (str "mood", .str (str "happy")),
    (str "animation", .str (str "happy")), (str "text", .str (str "say \"hi\"")),
    (str "alert", .bool false), (str "duration_ms", .int 4000)]

def greetingCommand : BehaviorCommand where
  mood := .happy
  animation := .happy
  text := some (str "say \"hi\"")
  alert := false
  durationMs := 4000

theorem parse_greeting : parseBehaviorResponse (replyDecoder greeting greetingObject) greeting =
    .ok greetingCommand := by
  simp only [parseBehaviorResponse, load_replyDecoder]
  rfl

theorem text_round_trip_iff_greeting :
    (∃ update, parse fromSliceFlat (encodeAscii greetingCommand.toJsonLine) = .ok update ∧
      update.text.map HeaplessString.codes = greetingCommand.text) ↔
      ∀ t ∈ greetingCommand.text, HidesEscapes t :=
  text_round_trip_iff deserializesFlat_fromSliceFlat parse_greeting

/-- Shown with its backslashes, so not as sent. -/
theorem text_round_trip_fails :
    parseBehaviorResponse (replyDecoder greeting greetingObject) greeting = .ok greetingCommand ∧
      ¬ ∃ update, parse fromSliceFlat (encodeAscii greetingCommand.toJsonLine) = .ok update ∧
        update.text.map HeaplessString.codes = greetingCommand.text := by
  have hvalid := parseBehaviorResponse_valid parse_greeting
  refine ⟨parse_greeting, ?_⟩
  rw [parse_toJsonLine deserializesFlat_fromSliceFlat hvalid]
  rintro ⟨update, hupdate, htext⟩
  obtain rfl := Except.ok.inj hupdate
  rw [codes_updateOf hvalid] at htext
  revert htext
  decide

end Hologotchi.Firmware
