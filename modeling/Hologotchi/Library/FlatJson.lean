import Mathlib.Data.Nat.Digits.Lemmas
import Mathlib.Tactic.Ring

/-! Flat JSON objects over code points: compact printing, and parsing of what is printed.
String values are kept as the text between the quotes, escapes included. -/
namespace Hologotchi.Library.FlatJson

inductive Value
  | null
  | bool (b : Bool)
  | int (n : ℤ)
  | str (body : List ℕ)
  deriving DecidableEq, Repr

/-- The fields of a flat object, in order. -/
abbrev Fields := List (List ℕ × Value)

def text (s : String) : List ℕ := s.toList.map Char.toNat

def decimal (n : ℕ) : List ℕ :=
  if n = 0 then [48] else (Nat.digits 10 n).reverse.map (48 + ·)

def printInt : ℤ → List ℕ
  | .ofNat n => decimal n
  | .negSucc n => 45 :: decimal (n + 1)

def printValue : Value → List ℕ
  | .null => text "null"
  | .bool true => text "true"
  | .bool false => text "false"
  | .int n => printInt n
  | .str body => 34 :: body ++ [34]

def printField (f : List ℕ × Value) : List ℕ := 34 :: f.1 ++ 34 :: 58 :: printValue f.2

def printFields : Fields → List ℕ
  | [] => []
  | [f] => printField f
  | f :: fs => printField f ++ 44 :: printFields fs

def print (fs : Fields) : List ℕ := 123 :: printFields fs ++ [125]

def hexDigit (d : ℕ) : ℕ := if d < 10 then 48 + d else 87 + d

def hex4 (n : ℕ) : List ℕ :=
  [hexDigit (n / 4096 % 16), hexDigit (n / 256 % 16), hexDigit (n / 16 % 16), hexDigit (n % 16)]

/-- The ASCII-only escape of one code point, with a surrogate pair beyond the basic plane. -/
def escapeChar (c : ℕ) : List ℕ :=
  if c = 34 then [92, 34]
  else if c = 92 then [92, 92]
  else if c = 10 then [92, 110]
  else if c = 13 then [92, 114]
  else if c = 9 then [92, 116]
  else if c = 12 then [92, 102]
  else if c = 8 then [92, 98]
  else if 32 ≤ c ∧ c ≤ 126 then [c]
  else if c < 65536 then 92 :: 117 :: hex4 c
  else
    92 :: 117 :: hex4 (0xd800 + (c - 65536) / 1024) ++
      92 :: 117 :: hex4 (0xdc00 + (c - 65536) % 1024)

def escape (s : List ℕ) : List ℕ := s.flatMap escapeChar

/-- A text that can stand between quotes: each backslash takes a code point with it and no
other quote occurs. -/
def bodyOk : List ℕ → Bool
  | [] => true
  | 92 :: _ :: rest => bodyOk rest
  | [92] => false
  | c :: rest => c != 34 && bodyOk rest

def expect (p l : List ℕ) : Option (List ℕ) :=
  if p.isPrefixOf l then some (l.drop p.length) else none

/-- Read up to the closing quote. -/
def takeBody : List ℕ → Option (List ℕ × List ℕ)
  | [] => none
  | 34 :: rest => some ([], rest)
  | 92 :: c :: rest => (takeBody rest).map fun r => (92 :: c :: r.1, r.2)
  | c :: rest => (takeBody rest).map fun r => (c :: r.1, r.2)

def isDigit (c : ℕ) : Bool := 48 ≤ c && c ≤ 57

def undecimal (ds : List ℕ) : ℕ := ds.foldl (fun n d => 10 * n + (d - 48)) 0

def takeNat (l : List ℕ) : Option (ℕ × List ℕ) :=
  let ds := l.takeWhile isDigit
  if ds = [] then none else some (undecimal ds, l.dropWhile isDigit)

def takeInt : List ℕ → Option (ℤ × List ℕ)
  | 45 :: rest => (takeNat rest).map fun r => (-(r.1 : ℤ), r.2)
  | l => (takeNat l).map fun r => ((r.1 : ℤ), r.2)

def takeValue : List ℕ → Option (Value × List ℕ)
  | 34 :: rest => (takeBody rest).map fun r => (.str r.1, r.2)
  | l =>
    ((expect (text "null") l).map (.null, ·)).orElse fun _ =>
    ((expect (text "true") l).map (.bool true, ·)).orElse fun _ =>
    ((expect (text "false") l).map (.bool false, ·)).orElse fun _ =>
    (takeInt l).map fun r => (.int r.1, r.2)

def takeField (l : List ℕ) : Option ((List ℕ × Value) × List ℕ) := do
  let l ← expect [34] l
  let (key, l) ← takeBody l
  let l ← expect [58] l
  let (value, l) ← takeValue l
  some ((key, value), l)

/-- Fields separated by commas up to the closing brace. -/
def takeFields : ℕ → List ℕ → Option (Fields × List ℕ)
  | 0, _ => none
  | n + 1, l => do
    let (f, l) ← takeField l
    match l with
    | 44 :: l => (takeFields n l).map fun r => (f :: r.1, r.2)
    | 125 :: l => some ([f], l)
    | _ => none

/-- Parse one flat object from the front of the text. -/
def parse : List ℕ → Option (Fields × List ℕ)
  | 123 :: 125 :: l => some ([], l)
  | 123 :: l => takeFields l.length l
  | _ => none

variable {body rest : List ℕ} {v : Value} {f : List ℕ × Value} {fs : Fields}

@[simp] theorem expect_append (p rest : List ℕ) : expect p (p ++ rest) = some rest := by
  simp [expect]

theorem takeBody_append (h : bodyOk body) : takeBody (body ++ 34 :: rest) = some (body, rest) := by
  fun_induction bodyOk body with
  | case1 => rfl
  | case2 c tail ih => simp [takeBody, ih h]
  | case3 => simp at h
  | case4 c tail hpair hlone ih =>
    obtain ⟨hquote, htail⟩ : c ≠ 34 ∧ bodyOk tail = true := by simpa using h
    have hback : c ≠ 92 := by
      rintro rfl
      cases tail with
      | nil => exact hlone rfl rfl
      | cons x xs => exact hpair x xs rfl rfl
    rw [List.cons_append, takeBody.eq_4 _ _ hquote (fun _ _ hc => absurd hc hback), ih htail]
    rfl

theorem decimal_isDigit {n c : ℕ} (h : c ∈ decimal n) : isDigit c = true := by
  simp only [decimal] at h
  split at h
  · simp_all [isDigit]
  · obtain ⟨d, hd, rfl⟩ := List.mem_map.mp h
    have := Nat.digits_lt_base (by omega) (List.mem_reverse.mp hd)
    simp only [isDigit, Bool.and_eq_true, decide_eq_true_eq]
    omega

theorem decimal_ne_nil (n : ℕ) : decimal n ≠ [] := by
  simp only [decimal]
  split <;> simp_all [Nat.digits_ne_nil_iff_ne_zero]

theorem decimal_length {n : ℕ} (h : n < 2 ^ 32) : (decimal n).length ≤ 10 := by
  simp only [decimal]
  split
  · simp
  · simp only [List.length_map, List.length_reverse]
    rw [Nat.digits_length_le_iff (by omega)]
    omega

theorem undecimal_reverse (ds : List ℕ) :
    undecimal (ds.reverse.map (48 + ·)) = Nat.ofDigits 10 ds := by
  induction ds with
  | nil => rfl
  | cons d ds ih =>
    have hlast : undecimal ((d :: ds).reverse.map (48 + ·)) =
        10 * undecimal (ds.reverse.map (48 + ·)) + d := by
      simp [undecimal, List.foldl_append]
    rw [hlast, ih, Nat.ofDigits_cons]
    ring

theorem undecimal_decimal (n : ℕ) : undecimal (decimal n) = n := by
  simp only [decimal]
  split
  · simp_all [undecimal]
  · rw [undecimal_reverse, Nat.ofDigits_digits]

/-- The text goes on with something that is not a digit. -/
def StopsNumber (l : List ℕ) : Prop := ∀ c ∈ l.head?, isDigit c = false

theorem takeNat_decimal (n : ℕ) (h : StopsNumber rest) :
    takeNat (decimal n ++ rest) = some (n, rest) := by
  have hall : ∀ c ∈ decimal n, isDigit c = true := by
    intro _
    exact decimal_isDigit
  have hstop : rest.takeWhile isDigit = [] ∧ rest.dropWhile isDigit = rest := by
    cases rest with
    | nil => simp
    | cons c rest => simp [h c (by simp)]
  simp only [takeNat, List.takeWhile_append_of_pos hall, List.dropWhile_append_of_pos hall,
    hstop, List.append_nil, undecimal_decimal]
  exact if_neg (decimal_ne_nil n)

theorem takeInt_printInt (n : ℤ) (h : StopsNumber rest) :
    takeInt (printInt n ++ rest) = some (n, rest) := by
  cases n with
  | ofNat n =>
    obtain ⟨c, l, hl⟩ := List.exists_cons_of_ne_nil (decimal_ne_nil n)
    have hc : c ≠ 45 := by
      rintro rfl
      have : isDigit 45 = true := decimal_isDigit (n := n) (by simp [hl])
      simp [isDigit] at this
    have hnat := takeNat_decimal n h
    simp only [printInt]
    rw [hl] at hnat ⊢
    rw [List.cons_append, takeInt.eq_2 _ (by simp [hc])]
    rw [← List.cons_append, hnat]
    rfl
  | negSucc n =>
    simp [printInt, takeInt, takeNat_decimal (n + 1) h]
    omega

theorem printInt_head (n : ℤ) : ∃ c l, printInt n = c :: l ∧ (c = 45 ∨ isDigit c = true) := by
  cases n with
  | ofNat n =>
    obtain ⟨c, l, hl⟩ := List.exists_cons_of_ne_nil (decimal_ne_nil n)
    exact ⟨c, l, hl, .inr (decimal_isDigit (n := n) (by simp [hl]))⟩
  | negSucc n => exact ⟨45, decimal (n + 1), rfl, .inl rfl⟩

theorem expect_ne {c d : ℕ} (p l : List ℕ) (h : c ≠ d) : expect (c :: p) (d :: l) = none := by
  simp [expect, h]

/-- Values whose string body can stand between quotes. -/
def Value.Ok : Value → Prop
  | .str body => bodyOk body = true
  | _ => True

theorem takeValue_printValue (hv : v.Ok) (h : StopsNumber rest) :
    takeValue (printValue v ++ rest) = some (v, rest) := by
  cases v with
  | null => simp [printValue, text, takeValue, expect]
  | bool b => cases b <;> simp [printValue, text, takeValue, expect]
  | str body => simp [printValue, takeValue, takeBody_append hv]
  | int n =>
    obtain ⟨c, l, hl, hc⟩ := printInt_head n
    have hne : ∀ d, d = 34 ∨ d = 110 ∨ d = 116 ∨ d = 102 → d ≠ c := by
      rintro d hd rfl
      rcases hd with rfl | rfl | rfl | rfl <;> simp [isDigit] at hc
    have hint := takeInt_printInt n h
    simp only [printValue]
    rw [hl, List.cons_append] at hint ⊢
    rw [takeValue.eq_2 _ (fun _ he => hne 34 (by simp) (List.cons.inj he).1.symm)]
    have hnull : expect (text "null") (c :: (l ++ rest)) = none := expect_ne _ _ (hne 110 (by simp))
    have htrue : expect (text "true") (c :: (l ++ rest)) = none := expect_ne _ _ (hne 116 (by simp))
    have hfalse : expect (text "false") (c :: (l ++ rest)) = none :=
      expect_ne _ _ (hne 102 (by simp))
    simp [hnull, htrue, hfalse, hint]

theorem takeField_printField (hk : bodyOk f.1 = true) (hv : f.2.Ok) (h : StopsNumber rest) :
    takeField (printField f ++ rest) = some (f, rest) := by
  have hquote : expect [34] (printField f ++ rest) =
      some (f.1 ++ 34 :: 58 :: (printValue f.2 ++ rest)) := by
    simp [expect, printField]
  have hcolon : expect [58] (58 :: (printValue f.2 ++ rest)) = some (printValue f.2 ++ rest) := by
    simp [expect]
  simp [takeField, hquote, takeBody_append hk, hcolon, takeValue_printValue hv h]

/-- Keys and string values can stand between quotes. -/
def Ok (fs : Fields) : Prop := ∀ f ∈ fs, bodyOk f.1 = true ∧ f.2.Ok

theorem length_printField_str (key body : List ℕ) :
    (printField (key, .str body)).length = key.length + body.length + 5 := by
  simp only [printField, printValue, List.length_cons, List.length_append, List.length_nil]
  omega

theorem printField_pos (f : List ℕ × Value) : 0 < (printField f).length := by
  simp [printField]

theorem length_le_printFields (fs : Fields) : fs.length ≤ (printFields fs).length := by
  fun_induction printFields fs with
  | case1 => simp
  | case2 f => exact printField_pos f
  | case3 f fs _ ih => simp; omega

theorem takeFields_printFields {n : ℕ} (hfs : fs ≠ []) (hok : Ok fs) (hn : fs.length ≤ n) :
    takeFields n (printFields fs ++ 125 :: rest) = some (fs, rest) := by
  induction fs generalizing n with
  | nil => exact absurd rfl hfs
  | cons f fs ih =>
    obtain ⟨hf, hrest⟩ := List.forall_mem_cons.mp hok
    obtain ⟨n, rfl⟩ : ∃ k, n = k + 1 := ⟨n - 1, by simp at hn; omega⟩
    cases fs with
    | nil =>
      have hstop : StopsNumber (125 :: rest) := by simp [StopsNumber, isDigit]
      simp [takeFields, printFields, takeField_printField hf.1 hf.2 hstop]
    | cons g gs =>
      have hstop : StopsNumber (44 :: (printFields (g :: gs) ++ 125 :: rest)) := by
        simp [StopsNumber, isDigit]
      have hmore := ih (by simp) hrest (n := n) (by simpa using hn)
      simp [takeFields, printFields, takeField_printField hf.1 hf.2 hstop, hmore]

/-- Whatever follows it, a printed flat object is parsed back. -/
theorem parse_print (hok : Ok fs) : parse (print fs ++ rest) = some (fs, rest) := by
  cases fs with
  | nil => rfl
  | cons f fs =>
    have hlen := length_le_printFields (f :: fs)
    have hhead : ∃ l, printFields (f :: fs) = 34 :: l := by
      cases fs <;> simp [printFields, printField]
    have htake : takeFields (printFields (f :: fs) ++ 125 :: rest).length
        (printFields (f :: fs) ++ 125 :: rest) = some (f :: fs, rest) :=
      takeFields_printFields (by simp) hok (by rw [List.length_append]; omega)
    obtain ⟨l, hl⟩ := hhead
    simp only [print, List.cons_append, List.append_assoc, List.nil_append]
    rw [hl] at htake ⊢
    exact htake

theorem bodyOk_plain {c : ℕ} (hquote : c ≠ 34) (hback : c ≠ 92) (s : List ℕ) :
    bodyOk (c :: s) = bodyOk s := by
  rw [bodyOk.eq_4 _ _ (fun _ _ hc => absurd hc hback) (fun hc => absurd hc hback)]
  simp [hquote]

theorem bodyOk_hex4 (n : ℕ) (s : List ℕ) : bodyOk (hex4 n ++ s) = bodyOk s := by
  have hplain : ∀ d, hexDigit (d % 16) ≠ 34 ∧ hexDigit (d % 16) ≠ 92 := by
    intro d
    simp only [hexDigit]
    split <;> omega
  simp only [hex4, List.cons_append, List.nil_append]
  iterate 4 rw [bodyOk_plain (hplain _).1 (hplain _).2]

/-- The ways in which a character is written: with a letter of its own, as it is, or by its code
units. -/
theorem escapeChar_cases {P : List ℕ → Prop} {c : ℕ}
    (hletter : ∀ d ∈ [34, 92, 110, 114, 116, 102, 98], P [92, d])
    (hplain : c ≠ 34 → c ≠ 92 → 32 ≤ c ∧ c ≤ 126 → P [c]) (hunit : ∀ n, P (92 :: 117 :: hex4 n))
    (hpair : ∀ m n, P (92 :: 117 :: hex4 m ++ 92 :: 117 :: hex4 n)) : P (escapeChar c) := by
  unfold escapeChar
  refine iteInduction (fun _ => hletter 34 (by decide)) fun hquote => ?_
  refine iteInduction (fun _ => hletter 92 (by decide)) fun hback => ?_
  refine iteInduction (fun _ => hletter 110 (by decide)) fun _ => ?_
  refine iteInduction (fun _ => hletter 114 (by decide)) fun _ => ?_
  refine iteInduction (fun _ => hletter 116 (by decide)) fun _ => ?_
  refine iteInduction (fun _ => hletter 102 (by decide)) fun _ => ?_
  refine iteInduction (fun _ => hletter 98 (by decide)) fun _ => ?_
  refine iteInduction (fun hrange => hplain hquote hback hrange) fun _ => ?_
  exact iteInduction (fun _ => hunit c) fun _ => hpair _ _

theorem bodyOk_escapeChar (c : ℕ) (s : List ℕ) : bodyOk (escapeChar c ++ s) = bodyOk s := by
  apply escapeChar_cases (P := fun written => bodyOk (written ++ s) = bodyOk s)
  · intro d _
    rfl
  · intro hquote hback _
    exact bodyOk_plain hquote hback s
  · intro n
    exact bodyOk_hex4 n s
  · intro m n
    simp only [List.cons_append, List.append_assoc]
    rw [bodyOk, bodyOk_hex4, bodyOk, bodyOk_hex4]

/-- An escaped text can stand between quotes. -/
theorem bodyOk_escape (s : List ℕ) : bodyOk (escape s) = true := by
  induction s with
  | nil => rfl
  | cons c s ih =>
    rw [escape, List.flatMap_cons, bodyOk_escapeChar]
    exact ih

theorem escapeChar_plain {c : ℕ} (hquote : c ≠ 34) (hback : c ≠ 92) (h : 32 ≤ c ∧ c ≤ 126) :
    escapeChar c = [c] := by
  simp only [escapeChar, hquote, hback, h, and_self, if_true, if_false]
  repeat rw [if_neg (by omega)]

/-- A text without quotes and backslashes is its own escape. -/
theorem escape_plain {s : List ℕ} (hplain : ∀ c ∈ s, c ≠ 34 ∧ c ≠ 92)
    (h : ∀ c ∈ s, 32 ≤ c ∧ c ≤ 126) : escape s = s := by
  induction s with
  | nil => rfl
  | cons c s ih =>
    obtain ⟨hc, hs⟩ := List.forall_mem_cons.mp h
    obtain ⟨⟨hquote, hback⟩, hplain⟩ := List.forall_mem_cons.mp hplain
    rw [escape, List.flatMap_cons, escapeChar_plain hquote hback hc]
    exact congrArg (c :: ·) (ih hplain hs)

/-- A printable character is the last of its escape, which starts with it or with a backslash. -/
theorem escapeChar_ends {c : ℕ} (h : 32 ≤ c ∧ c ≤ 126) :
    escapeChar c = [c] ∨ escapeChar c = [92, c] := by
  by_cases hquote : c = 34
  · subst hquote
    exact .inr rfl
  · by_cases hback : c = 92
    · subst hback
      exact .inr rfl
    · exact .inl (escapeChar_plain hquote hback h)

/-- A printable character takes one or two. -/
theorem escapeChar_length {c : ℕ} (h : 32 ≤ c ∧ c ≤ 126) : (escapeChar c).length ≤ 2 := by
  rcases escapeChar_ends h with hself | hescaped
  · rw [hself]
    exact Nat.le_succ 1
  · rw [hescaped]
    exact Nat.le_refl 2

theorem length_escape_le {s : List ℕ} (h : ∀ c ∈ s, 32 ≤ c ∧ c ≤ 126) :
    (escape s).length ≤ 2 * s.length := by
  induction s with
  | nil => exact Nat.le_refl 0
  | cons c s ih =>
    obtain ⟨hc, hs⟩ := List.forall_mem_cons.mp h
    have hchar := escapeChar_length hc
    have hrest := ih hs
    rw [escape] at hrest ⊢
    rw [List.flatMap_cons, List.length_append, List.length_cons]
    omega

theorem hexDigit_range (n : ℕ) : 48 ≤ hexDigit (n % 16) ∧ hexDigit (n % 16) ≤ 102 := by
  simp only [hexDigit]
  split <;> omega

theorem hex4_range {c n : ℕ} (h : c ∈ hex4 n) : 48 ≤ c ∧ c ≤ 102 := by
  simp only [hex4, List.mem_cons, List.not_mem_nil, or_false] at h
  rcases h with rfl | rfl | rfl | rfl <;> exact hexDigit_range _

theorem unicodeEscape_range {d n : ℕ} (h : d ∈ 92 :: 117 :: hex4 n) : 32 ≤ d ∧ d ≤ 126 := by
  rcases List.mem_cons.mp h with rfl | h
  · decide
  · rcases List.mem_cons.mp h with rfl | h
    · decide
    · have hrange := hex4_range h
      omega

/-- Escaping leaves only printable ASCII. -/
theorem escapeChar_range {c d : ℕ} (h : d ∈ escapeChar c) : 32 ≤ d ∧ d ≤ 126 := by
  revert h
  apply escapeChar_cases (P := fun written => d ∈ written → 32 ≤ d ∧ d ≤ 126)
  · intro letter hletter h
    simp only [List.mem_cons, List.not_mem_nil, or_false] at hletter h
    omega
  · intro _ _ hrange h
    obtain rfl := List.mem_singleton.mp h
    exact hrange
  · intro n h
    exact unicodeEscape_range h
  · intro m n h
    rcases List.mem_append.mp h with h | h
    · exact unicodeEscape_range h
    · exact unicodeEscape_range h

theorem escape_range {s : List ℕ} {d : ℕ} (h : d ∈ escape s) : 32 ≤ d ∧ d ≤ 126 := by
  obtain ⟨c, -, hd⟩ := List.mem_flatMap.mp h
  exact escapeChar_range hd

theorem mem_printInt {c : ℕ} {n : ℤ} (h : c ∈ printInt n) : 34 ≤ c ∧ c ≤ 125 := by
  have hdecimal : ∀ {k}, c ∈ decimal k → 34 ≤ c ∧ c ≤ 125 := by
    intro k hk
    have hdigit := decimal_isDigit hk
    simp only [isDigit, Bool.and_eq_true, decide_eq_true_eq] at hdigit
    omega
  cases n with
  | ofNat n => exact hdecimal h
  | negSucc n =>
    rcases List.mem_cons.mp h with rfl | h
    · decide
    · exact hdecimal h

/-- Besides the strings there is only punctuation, digits and words. -/
theorem mem_printValue {c : ℕ} (h : c ∈ printValue v) :
    (34 ≤ c ∧ c ≤ 125) ∨ ∃ body, v = .str body ∧ c ∈ body := by
  cases v with
  | null => exact .inl (by revert c; decide)
  | bool b => exact .inl (by cases b <;> (revert c; decide))
  | int n => exact .inl (mem_printInt h)
  | str body =>
    simp only [printValue, List.cons_append, List.mem_cons, List.mem_append, List.not_mem_nil,
      or_false] at h
    rcases h with rfl | hbody | rfl
    · exact .inl (by decide)
    · exact .inr ⟨body, rfl, hbody⟩
    · exact .inl (by decide)

theorem mem_printField {c : ℕ} (h : c ∈ printField f) :
    (34 ≤ c ∧ c ≤ 125) ∨ c ∈ f.1 ∨ ∃ body, f.2 = .str body ∧ c ∈ body := by
  simp only [printField, List.cons_append, List.mem_cons, List.mem_append] at h
  rcases h with rfl | hkey | rfl | rfl | hvalue
  · exact .inl (by decide)
  · exact .inr (.inl hkey)
  · exact .inl (by decide)
  · exact .inl (by decide)
  · exact (mem_printValue hvalue).imp_right .inr

theorem mem_print {c : ℕ} (h : c ∈ print fs) :
    (34 ≤ c ∧ c ≤ 125) ∨ ∃ f ∈ fs, c ∈ f.1 ∨ ∃ body, f.2 = .str body ∧ c ∈ body := by
  have hfields : ∀ {fs}, c ∈ printFields fs →
      (34 ≤ c ∧ c ≤ 125) ∨ ∃ f ∈ fs, c ∈ f.1 ∨ ∃ body, f.2 = .str body ∧ c ∈ body := by
    intro fs hc
    fun_induction printFields fs with
    | case1 => cases hc
    | case2 f => exact (mem_printField hc).imp_right fun hf => ⟨f, List.mem_singleton_self f, hf⟩
    | case3 f fs _ ih =>
      simp only [List.mem_append, List.mem_cons] at hc
      rcases hc with hc | rfl | hc
      · exact (mem_printField hc).imp_right fun hf => ⟨f, List.mem_cons_self, hf⟩
      · exact .inl (by decide)
      · exact (ih hc).imp_right fun ⟨g, hg, hcode⟩ => ⟨g, List.mem_cons_of_mem _ hg, hcode⟩
  simp only [print, List.cons_append, List.mem_cons, List.mem_append, List.not_mem_nil,
    or_false] at h
  rcases h with rfl | h | rfl
  · exact .inl (by decide)
  · exact hfields h
  · exact .inl (by decide)

/-- Every code point is ASCII. -/
def Ascii (s : List ℕ) : Prop := ∀ c ∈ s, c < 128

theorem ascii_escape (s : List ℕ) : Ascii (escape s) := by
  intro d hd
  have hrange := escape_range hd
  omega

/-- Values whose text is ASCII. -/
def Value.AsciiBody : Value → Prop
  | .str body => Ascii body
  | _ => True

/-- An object of ASCII strings is printed in ASCII. -/
theorem ascii_print (h : ∀ f ∈ fs, Ascii f.1 ∧ f.2.AsciiBody) : Ascii (print fs) := by
  intro c hc
  rcases mem_print hc with hrange | ⟨f, hf, hkey | ⟨body, hbody, hmem⟩⟩
  · omega
  · exact (h f hf).1 c hkey
  · have hascii := (h f hf).2
    rw [hbody] at hascii
    exact hascii c hmem

end Hologotchi.Library.FlatJson
