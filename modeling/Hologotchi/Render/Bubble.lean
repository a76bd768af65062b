import Hologotchi.Firmware.Behavior

/-! The lines of a text bubble (`split_bubble_text` in `device/src/render.rs`). -/
namespace Hologotchi.Render

open Firmware Library Trim

def maxLineChars : ℕ := 17
def textW : ℤ := 6
def padX : ℤ := 7

structure BubbleText where
  first : List Char
  second : Option (List Char)
  deriving DecidableEq, Repr

/-- `char_indices`, from a byte position on. -/
def charIndices (byte : ℕ) : List Char → List (ℕ × Char)
  | [] => []
  | ch :: rest => (byte, ch) :: charIndices (byte + ch.utf8Size) rest

/-- `text[..byte]`. -/
def sliceTo : List Char → ℕ → List Char
  | [], _ => []
  | ch :: rest, byte => if ch.utf8Size ≤ byte then ch :: sliceTo rest (byte - ch.utf8Size) else []

/-- `text[byte..]`. -/
def sliceFrom : List Char → ℕ → List Char
  | [], _ => []
  | ch :: rest, byte =>
    if ch.utf8Size ≤ byte then sliceFrom rest (byte - ch.utf8Size) else ch :: rest

/-- The loop that looks for the last space, and for the byte position of the limit. -/
def findBreak (maxLineChars : ℕ) (charIndex : ℕ) (splitAt : Option ℕ) (byteAtLimit : ℕ) :
    List (ℕ × Char) → Option ℕ × ℕ
  | [] => (splitAt, byteAtLimit)
  | (byteIndex, ch) :: rest =>
    if charIndex = maxLineChars then (splitAt, byteIndex)
    else
      findBreak maxLineChars (charIndex + 1) (if ch = ' ' then some byteIndex else splitAt)
        byteAtLimit rest

def splitBubbleText (text : List Char) (maxLineChars : ℕ) : BubbleText :=
  if text.length ≤ maxLineChars then ⟨text, none⟩
  else
    let (splitAt, byteAtLimit) := findBreak maxLineChars 0 none (utf8Len text) (charIndices 0 text)
    let splitAt := splitAt.getD byteAtLimit
    let first := (sliceTo text splitAt).rdropWhile isWhitespace
    let second := (sliceFrom text splitAt).dropWhile isWhitespace
    ⟨first, if second = [] then none else some second⟩

/-- The width of the bubble that `draw_bubble` draws. -/
def bubbleWidth (split : BubbleText) : ℤ :=
  let longest := max split.first.length (split.second.elim 0 List.length)
  min 122 (max 36 (longest * textW + padX * 2))

variable {text done rest first second : List Char} {c : Char} {m n i : ℕ} {splitAt : Option ℕ}

theorem sliceTo_oneByte (h : OneByte text) (n : ℕ) : sliceTo text n = text.take n := by
  induction text generalizing n with
  | nil => simp [sliceTo]
  | cons c text ih =>
    obtain ⟨hc, hrest⟩ := List.forall_mem_cons.mp h
    rw [sliceTo, hc]
    cases n with
    | zero => rfl
    | succ n =>
      rw [if_pos (by omega), Nat.add_sub_cancel, ih hrest]
      rfl

theorem sliceFrom_oneByte (h : OneByte text) (n : ℕ) : sliceFrom text n = text.drop n := by
  induction text generalizing n with
  | nil => simp [sliceFrom]
  | cons c text ih =>
    obtain ⟨hc, hrest⟩ := List.forall_mem_cons.mp h
    rw [sliceFrom, hc]
    cases n with
    | zero => rfl
    | succ n =>
      rw [if_pos (by omega), Nat.add_sub_cancel, ih hrest]
      rfl

/-- The position of the last space of a text, if it has one. -/
def LastSpace (text : List Char) : Option ℕ → Prop
  | some i => ∃ before after, text = before ++ ' ' :: after ∧ before.length = i ∧ ' ' ∉ after
  | none => ' ' ∉ text

theorem lastSpace_concat (h : LastSpace done splitAt) (c : Char) :
    LastSpace (done ++ [c]) (if c = ' ' then some done.length else splitAt) := by
  split
  · rename_i hspace
    exact ⟨done, [], by rw [hspace], rfl, List.not_mem_nil⟩
  · rename_i hother
    cases splitAt with
    | none =>
      intro hmem
      rcases List.mem_append.mp hmem with hmem | hmem
      · exact h hmem
      · exact hother (List.mem_singleton.mp hmem).symm
    | some i =>
      obtain ⟨before, after, rfl, hi, hafter⟩ := h
      refine ⟨before, after ++ [c], by simp, hi, ?_⟩
      intro hmem
      rcases List.mem_append.mp hmem with hmem | hmem
      · exact hafter hmem
      · exact hother (List.mem_singleton.mp hmem).symm

/-- The loop finds the last space before the limit. -/
theorem findBreak_spec (hone : OneByte rest) (h : LastSpace done splitAt)
    (hdone : done.length ≤ m) (hlong : m < (done ++ rest).length) :
    ∃ found, findBreak m done.length splitAt n (charIndices done.length rest) = (found, m) ∧
      LastSpace ((done ++ rest).take m) found := by
  induction rest generalizing done splitAt with
  | nil =>
    rw [List.append_nil] at hlong
    omega
  | cons c rest ih =>
    obtain ⟨hc, hrest⟩ := List.forall_mem_cons.mp hone
    rw [charIndices, findBreak, hc]
    by_cases hend : done.length = m
    · rw [if_pos hend, List.take_left' hend]
      exact ⟨splitAt, by rw [hend], h⟩
    · rw [if_neg hend]
      have hnext := ih hrest (lastSpace_concat h c)
        (by rw [List.length_append, List.length_singleton]; omega) (by simpa using hlong)
      simpa using hnext

/-- Printable ASCII without surrounding spaces, of a length the renderer keeps. -/
structure BubbleInput (text : List Char) : Prop where
  printable : ∀ c ∈ text, 32 ≤ c.toNat ∧ c.toNat ≤ 126
  trimmed : Trimmed (· == ' ') text
  ne_nil : text ≠ []
  short : text.length ≤ textCapacity

/-- `BubbleInput`, character by character. -/
def BubbleInput.check (text : List Char) : Bool :=
  text.all (fun c => 32 ≤ c.toNat && c.toNat ≤ 126) && text.head?.all (· != ' ') &&
    text.getLast?.all (· != ' ') && !text.isEmpty && decide (text.length ≤ textCapacity)

theorem BubbleInput.check_iff (text : List Char) : check text = true ↔ BubbleInput text := by
  constructor
  · intro h
    simp only [check, Bool.and_eq_true, List.all_eq_true, decide_eq_true_eq, Option.all_eq_true,
      bne_iff_ne, Bool.not_eq_true', List.isEmpty_eq_false_iff] at h
    obtain ⟨⟨⟨⟨hprintable, hfirst⟩, hlast⟩, hne⟩, hshort⟩ := h
    exact ⟨hprintable, ⟨fun c hc => beq_false_of_ne (hfirst c hc),
      fun c hc => beq_false_of_ne (hlast c hc)⟩, hne, hshort⟩
  · intro h
    simp only [check, Bool.and_eq_true, List.all_eq_true, decide_eq_true_eq, Option.all_eq_true,
      bne_iff_ne, Bool.not_eq_true', List.isEmpty_eq_false_iff]
    exact ⟨⟨⟨⟨h.printable, fun c hc => ne_of_beq_false (h.trimmed.first c hc)⟩,
      fun c hc => ne_of_beq_false (h.trimmed.last c hc)⟩, h.ne_nil⟩, h.short⟩

instance : DecidablePred BubbleInput := fun text =>
  decidable_of_iff (BubbleInput.check text = true) (BubbleInput.check_iff text)

/-- Every line has a character, and no more than the limit. -/
structure Fits (maxLineChars : ℕ) (split : BubbleText) : Prop where
  first : 1 ≤ split.first.length ∧ split.first.length ≤ maxLineChars
  second : ∀ line ∈ split.second, 1 ≤ line.length ∧ line.length ≤ maxLineChars

/-- The lines are the text without the spaces at the break. -/
def Keeps (text : List Char) (split : BubbleText) : Prop :=
  match split.second with
  | none => text = split.first
  | some second => ∃ n, text = split.first ++ List.replicate n ' ' ++ second

theorem isWhitespace_printable (h : 32 ≤ c.toNat ∧ c.toNat ≤ 126) :
    isWhitespace c = (c == ' ') := by
  have hspace : c = ' ' ↔ c.toNat = 32 :=
    ⟨fun heq => heq ▸ rfl, fun heq => Char.ext (UInt32.toNat_inj.mp heq)⟩
  have hiff : isWhitespace c = true ↔ c.toNat = 32 := by
    simp only [isWhitespace, Bool.or_eq_true, Bool.and_eq_true, decide_eq_true_eq, beq_iff_eq]
    omega
  rw [Bool.eq_iff_iff, hiff, beq_iff_eq, hspace]

theorem oneByte_printable (h : ∀ c ∈ text, 32 ≤ c.toNat ∧ c.toNat ≤ 126) : OneByte text := by
  intro c hc
  have hhigh : c.val.toNat ≤ 126 := (h c hc).2
  apply Char.utf8Size_eq_one_iff.mpr
  rw [UInt32.le_iff_toNat_le]
  exact Nat.le_trans hhigh (by decide)

theorem dropWhile_printable (h : ∀ c ∈ text, 32 ≤ c.toNat ∧ c.toNat ≤ 126) :
    text.dropWhile isWhitespace = text.dropWhile (· == ' ') := by
  induction text with
  | nil => rfl
  | cons c text ih =>
    obtain ⟨hc, hrest⟩ := List.forall_mem_cons.mp h
    rw [List.dropWhile_cons, List.dropWhile_cons, isWhitespace_printable hc, ih hrest]

theorem rdropWhile_printable (h : ∀ c ∈ text, 32 ≤ c.toNat ∧ c.toNat ≤ 126) :
    text.rdropWhile isWhitespace = text.rdropWhile (· == ' ') := by
  rw [List.rdropWhile, List.rdropWhile, dropWhile_printable]
  simpa using h

/-- A text that is too long for a line is split at its last space before the limit, or there. -/
theorem splitBubbleText_long (h : ∀ c ∈ text, 32 ≤ c.toNat ∧ c.toNat ≤ 126)
    (hlong : m < text.length) : ∃ found, LastSpace (text.take m) found ∧
      splitBubbleText text m =
        ⟨(text.take (found.getD m)).rdropWhile (· == ' '),
          if (text.drop (found.getD m)).dropWhile (· == ' ') = [] then none
          else some ((text.drop (found.getD m)).dropWhile (· == ' '))⟩ := by
  have hone := oneByte_printable h
  obtain ⟨found, hfind, hlast⟩ := findBreak_spec (n := utf8Len text) hone
    (show LastSpace [] none from List.not_mem_nil) (Nat.zero_le m) hlong
  refine ⟨found, hlast, ?_⟩
  rw [List.length_nil] at hfind
  rw [splitBubbleText, if_neg (by omega), hfind]
  simp only [sliceTo_oneByte hone, sliceFrom_oneByte hone]
  rw [rdropWhile_printable fun c hc => h c (List.mem_of_mem_take hc),
    dropWhile_printable fun c hc => h c (List.mem_of_mem_drop hc)]

theorem second_ne_nil (h : Trimmed (· == ' ') text) (hn : n < text.length) :
    (text.drop n).dropWhile (· == ' ') ≠ [] := by
  intro hnil
  have hall := List.dropWhile_eq_nil_iff.mp hnil
  have hne : text ≠ [] := List.ne_nil_of_length_pos (by omega)
  have hlast : (text.drop n).getLast? = some (text.getLast hne) := by
    rw [List.getLast?_drop, if_neg (by omega), List.getLast?_eq_some_getLast hne]
  have hspace := hall _ (List.mem_of_getLast? hlast)
  have hnot := h.last _ (List.getLast?_eq_some_getLast hne)
  rw [hnot] at hspace
  contradiction

theorem first_ne_nil (h : Trimmed (· == ' ') text) (hne : text ≠ []) (hn : 0 < n) :
    (text.take n).rdropWhile (· == ' ') ≠ [] := by
  intro hnil
  have hall := List.rdropWhile_eq_nil_iff.mp hnil
  obtain ⟨c, rest, rfl⟩ := List.exists_cons_of_ne_nil hne
  obtain ⟨n, rfl⟩ := Nat.exists_eq_succ_of_ne_zero hn.ne'
  have hspace := hall c (by simp)
  have hnot := h.first c rfl
  rw [hnot] at hspace
  contradiction

/-- Only spaces are lost at a break. -/
theorem take_drop_spaces (text : List Char) (n : ℕ) : ∃ k,
    text = (text.take n).rdropWhile (· == ' ') ++ List.replicate k ' ' ++
      (text.drop n).dropWhile (· == ' ') := by
  have hbefore : (text.take n).rtakeWhile (· == ' ') =
      List.replicate ((text.take n).rtakeWhile (· == ' ')).length ' ' :=
    List.eq_replicate_iff.mpr ⟨rfl, fun c hc => by simpa using List.mem_rtakeWhile_imp hc⟩
  have hafter : (text.drop n).takeWhile (· == ' ') =
      List.replicate ((text.drop n).takeWhile (· == ' ')).length ' ' :=
    List.eq_replicate_iff.mpr ⟨rfl, fun c hc => by simpa using List.mem_takeWhile_imp hc⟩
  refine ⟨((text.take n).rtakeWhile (· == ' ')).length +
    ((text.drop n).takeWhile (· == ' ')).length, ?_⟩
  rw [List.replicate_add, ← hbefore, ← hafter, List.append_assoc, List.append_assoc,
    List.takeWhile_append_dropWhile, ← List.append_assoc, List.rdropWhile_append_rtakeWhile,
    List.take_append_drop]

/-- Where a text that is too long can be split so that what follows fits in a line. -/
def Splittable (maxLineChars : ℕ) (text : List Char) : Prop :=
  ' ' ∉ text.take maxLineChars ∨
    ∃ i < maxLineChars, text[i]? = some ' ' ∧ text.length ≤ i + maxLineChars + 1

theorem lastSpace_lt (hlast : LastSpace (text.take m) (some i)) : i < m := by
  obtain ⟨before, after, heq, rfl, -⟩ := hlast
  have hlength := congrArg List.length heq
  simp only [List.length_take, List.length_append, List.length_cons] at hlength
  omega

theorem lastSpace_pos (htrim : Trimmed (· == ' ') text)
    (hlast : LastSpace (text.take m) (some i)) : 0 < i := by
  obtain ⟨before, after, heq, rfl, -⟩ := hlast
  cases before with
  | cons c before => simp
  | nil =>
    have hhead : text.head? = some ' ' := by
      cases m with
      | zero => simp at heq
      | succ m =>
        cases text with
        | nil => simp at heq
        | cons c text =>
          simp only [List.take_succ_cons, List.nil_append, List.cons.injEq] at heq
          rw [heq.1, List.head?_cons]
    have hnot := htrim.first ' ' hhead
    contradiction

/-- The last space is the best one to split at. -/
theorem splittable_iff (hlast : LastSpace (text.take m) (some i)) :
    Splittable m text ↔ text.length ≤ i + m + 1 := by
  have hlt := lastSpace_lt hlast
  obtain ⟨before, after, heq, rfl, hafter⟩ := hlast
  have hspace : (text.take m)[before.length]? = some ' ' := by
    rw [heq]
    simp
  have hget {j : ℕ} (hj : j < m) : (text.take m)[j]? = text[j]? := List.getElem?_take_of_lt hj
  constructor
  · rintro (hnone | ⟨j, hj, hchar, hle⟩)
    · exact absurd (List.mem_of_getElem? hspace) hnone
    · rw [← hget hj, heq] at hchar
      have hle' : j ≤ before.length := by
        by_contra hgt
        have hindex : (before ++ ' ' :: after)[j]? = after[j - before.length - 1]? := by
          rw [List.getElem?_append_right (by omega), List.getElem?_cons]
          rw [if_neg (by omega)]
        rw [hindex] at hchar
        exact hafter (List.mem_of_getElem? hchar)
      omega
  · intro hle
    exact .inr ⟨before.length, hlt, (hget hlt) ▸ hspace, hle⟩

/-- What follows the last space before the limit. -/
theorem length_second (hm : m < text.length) (htwo : text.length ≤ 2 * m)
    (hlast : LastSpace (text.take m) (some i)) :
    ((text.drop i).dropWhile (· == ' ')).length ≤ m ↔ text.length ≤ i + m + 1 := by
  have hlt := lastSpace_lt hlast
  obtain ⟨before, after, heq, rfl, hafter⟩ := hlast
  have hlength := congrArg List.length heq
  simp only [List.length_take, List.length_append, List.length_cons] at hlength
  have hdrop : text.drop before.length = ' ' :: after ++ text.drop m := by
    conv_lhs => rw [← List.take_append_drop m text, heq]
    simp
  rw [hdrop]
  cases after with
  | nil =>
    have hfew : ((' ' :: [] ++ text.drop m).dropWhile (· == ' ')).length ≤
        (text.drop m).length := by
      rw [List.cons_append, List.nil_append, List.dropWhile_cons_of_pos rfl]
      exact (List.dropWhile_suffix _).length_le
    rw [List.length_drop] at hfew
    simp only [List.length_nil] at hlength
    omega
  | cons c after =>
    have hc : c ≠ ' ' := fun h => hafter (h ▸ List.mem_cons_self)
    have hrest : (' ' :: c :: after ++ text.drop m).dropWhile (· == ' ') =
        c :: after ++ text.drop m := by
      simp [hc]
    rw [hrest, List.length_append, List.length_drop]
    omega

theorem keeps_split (h : BubbleInput text) (m : ℕ) : Keeps text (splitBubbleText text m) := by
  by_cases hlong : m < text.length
  · obtain ⟨found, hlast, hsplit⟩ := splitBubbleText_long h.printable hlong
    have hfound : found.getD m < text.length := by
      cases found with
      | none => exact hlong
      | some i => exact Nat.lt_trans (lastSpace_lt hlast) hlong
    rw [hsplit, if_neg (second_ne_nil h.trimmed hfound)]
    exact take_drop_spaces text (found.getD m)
  · rw [splitBubbleText, if_pos (by omega)]
    rfl

/-- A text split within the limit fits when its second line does. -/
theorem fits_at_iff (h : BubbleInput text) (hlong : m < text.length) {k : ℕ} (hpos : 0 < k)
    (hle : k ≤ m) :
    Fits m ⟨(text.take k).rdropWhile (· == ' '),
        if (text.drop k).dropWhile (· == ' ') = [] then none
        else some ((text.drop k).dropWhile (· == ' '))⟩ ↔
      ((text.drop k).dropWhile (· == ' ')).length ≤ m := by
  have hfirst := List.length_pos_iff.mpr (first_ne_nil h.trimmed h.ne_nil hpos)
  have hsecond := second_ne_nil h.trimmed (Nat.lt_of_le_of_lt hle hlong)
  have hshort : ((text.take k).rdropWhile (· == ' ')).length ≤ m := by
    have hprefix := (List.rdropWhile_prefix (· == ' ') (text.take k)).length_le
    rw [List.length_take] at hprefix
    omega
  rw [if_neg hsecond]
  constructor
  · intro hfit
    exact (hfit.second _ rfl).2
  · intro hfew
    refine ⟨⟨hfirst, hshort⟩, fun line hline => ?_⟩
    obtain rfl := Option.some.inj hline
    exact ⟨List.length_pos_iff.mpr hsecond, hfew⟩

theorem fits_split_iff (h : BubbleInput text) (hm : 1 ≤ m) (htwo : text.length ≤ 2 * m) :
    Fits m (splitBubbleText text m) ↔ text.length ≤ m ∨ Splittable m text := by
  by_cases hlong : m < text.length
  · obtain ⟨found, hlast, hsplit⟩ := splitBubbleText_long h.printable hlong
    rw [hsplit]
    cases found with
    | none =>
      have hrest : ((text.drop m).dropWhile (· == ' ')).length ≤ (text.drop m).length :=
        (List.dropWhile_suffix _).length_le
      rw [List.length_drop] at hrest
      refine ⟨fun _ => .inr (.inl hlast), fun _ => ?_⟩
      apply (fits_at_iff h hlong hm (Nat.le_refl m)).mpr
      omega
    | some i =>
      rw [Option.getD_some, fits_at_iff h hlong (lastSpace_pos h.trimmed hlast)
        (lastSpace_lt hlast).le, length_second hlong htwo hlast, ← splittable_iff hlast]
      exact ⟨.inr, fun hor => hor.resolve_left (by omega)⟩
  · have hfits : Fits m (splitBubbleText text m) := by
      rw [splitBubbleText, if_pos (by omega)]
      exact ⟨⟨List.length_pos_iff.mpr h.ne_nil, Nat.le_of_not_lt hlong⟩,
        fun line hline => by simp at hline⟩
    exact ⟨fun _ => .inl (by omega), fun _ => hfits⟩

/-- Lines within the limit stand inside the bubble, with its padding at both ends. -/
theorem Fits.inside {split : BubbleText} (h : Fits maxLineChars split) {line : List Char}
    (hline : line = split.first ∨ line ∈ split.second) :
    line.length * textW + 2 * padX ≤ bubbleWidth split := by
  have hle : line.length ≤ max split.first.length (split.second.elim 0 List.length) := by
    rcases hline with rfl | hline
    · exact le_max_left _ _
    · rw [Option.mem_def.mp hline]
      exact le_max_right _ _
  have hmax : max split.first.length (split.second.elim 0 List.length) ≤ maxLineChars := by
    refine max_le h.first.2 ?_
    cases hsecond : split.second with
    | none => exact Nat.zero_le _
    | some second => exact (h.second second hsecond).2
  simp only [bubbleWidth, textW, padX, maxLineChars] at *
  omega

/-- Of plain text nothing is lost, and its lines fit exactly when it can be split. -/
theorem bubble_fits_iff (h : BubbleInput text) :
    Fits maxLineChars (splitBubbleText text maxLineChars) ∧
        Keeps text (splitBubbleText text maxLineChars) ↔
      text.length ≤ maxLineChars ∨ Splittable maxLineChars text := by
  have hshort := h.short
  rw [textCapacity] at hshort
  rw [fits_split_iff h (by decide) (by rw [maxLineChars]; omega)]
  exact ⟨And.left, fun hfits => ⟨hfits, keeps_split h maxLineChars⟩⟩

theorem bubble_fits_iff_love :
    Fits maxLineChars (splitBubbleText "love love love love you".toList maxLineChars) ∧
      Keeps "love love love love you".toList
        (splitBubbleText "love love love love you".toList maxLineChars) :=
  (bubble_fits_iff (by decide +kernel)).mpr
    (.inr (.inr ⟨14, by decide +kernel, by decide +kernel, by decide +kernel⟩))

/-- A short word in front of a long one leaves a line of 22 characters. -/
theorem not_bubble_always_fits : ¬ ∀ text, BubbleInput text →
    Fits maxLineChars (splitBubbleText text maxLineChars) ∧
      Keeps text (splitBubbleText text maxLineChars) := by
  intro h
  obtain ⟨hfits, -⟩ := h "a bcdefghijklmnopqrstuvw".toList (by decide +kernel)
  have hsecond := hfits.second "bcdefghijklmnopqrstuvw".toList (by decide +kernel)
  revert hsecond
  decide +kernel

end Hologotchi.Render
