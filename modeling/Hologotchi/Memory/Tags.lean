import Hologotchi.Library.Words
import Hologotchi.Python

/-! The words of the memory store (`host/memory.py`): tags, their packed text, search tokens
and summaries. -/
namespace Hologotchi.Memory

open Python Library.Words

def maxSummaryLen : ℕ := 200
def maxTags : ℕ := 8

def stopwords : List Str :=
  ["the", "a", "an", "and", "or", "is", "are", "was", "to", "of", "in", "on", "it", "its", "for",
    "shiro", "owner", "this", "that", "with"].map str

/-- `str.lower()` of one code point as far as `[a-z0-9]` can tell: the ASCII capitals, the
Kelvin sign and the dotted capital I. Every other lower case is outside ASCII. -/
def lowerChar (c : ℕ) : Str :=
  if 65 ≤ c ∧ c ≤ 90 then [c + 32]
  else if c = 0x212a then [107]
  else if c = 0x130 then [105, 0x307]
  else [c]

def lowerCase (s : Str) : Str := s.flatMap lowerChar

/-- `[a-z0-9]`. -/
def isTokenChar (c : ℕ) : Bool := (97 ≤ c && c ≤ 122) || (48 ≤ c && c ≤ 57)

/-- `_TOKEN_RE.findall`. -/
def findTokens (s : Str) : List Str := words (!isTokenChar ·) s

/-- `str.split()`. -/
def split (s : Str) : List Str := words isSpace s

/-- The admitted tokens, each where it is first met. -/
def collect (admits : Str → Bool) (tokens : List Str) : List Str :=
  tokens.foldl (fun found token =>
    if admits token ∧ token ∉ found then found ++ [token] else found) []

def cleanSummary (summary : Str) : Str := ([32].intercalate (split summary)).take maxSummaryLen

def normalizeTag (tag : Str) : Str := [95].intercalate (findTokens (lowerCase tag))

def normalizeTags (tags : Option (List Str)) : List Str :=
  (collect (!·.isEmpty) ((tags.getD []).map normalizeTag)).take maxTags

def encodeTags (tags : Option (List Str)) : Str :=
  let tokens := normalizeTags tags
  if tokens = [] then [] else 32 :: [32].intercalate tokens ++ [32]

def decodeTags (text : Str) : List Str := split text

def tokenize (text : Str) : List Str :=
  (collect (fun token => 3 ≤ token.length && token ∉ stopwords) (findTokens (lowerCase text))).take 8

/-- A tag as the store keeps it. -/
structure Normalized (token : Str) : Prop where
  ne_nil : token ≠ []
  fixed : normalizeTag token = token

/-- A tags text that `_encode_tags` wrote. -/
def Packed (text : Str) : Prop := ∃ tags, text = encodeTags tags

variable {admits : Str → Bool} {tokens found : List Str} {token tag text s : Str} {c : ℕ}
  {tags : Option (List Str)}

theorem collect_concat : collect admits (tokens ++ [token]) =
    if admits token ∧ token ∉ collect admits tokens then collect admits tokens ++ [token]
    else collect admits tokens := by
  rw [collect, List.foldl_append]
  rfl

theorem collect_nodup : (collect admits tokens).Nodup := by
  induction tokens using List.reverseRecOn with
  | nil => simp [collect]
  | append_singleton tokens token ih =>
    rw [collect_concat]
    split
    next h => simpa using ih.concat h.2
    next => exact ih

theorem mem_collect (h : token ∈ collect admits tokens) : admits token ∧ token ∈ tokens := by
  induction tokens using List.reverseRecOn with
  | nil => simp [collect] at h
  | append_singleton tokens last ih =>
    rw [collect_concat] at h
    split at h
    next hlast =>
      rcases List.mem_append.mp h with h | h
      · exact ⟨(ih h).1, List.mem_append_left _ (ih h).2⟩
      · obtain rfl := List.mem_singleton.mp h
        exact ⟨hlast.1, by simp⟩
    next => exact ⟨(ih h).1, List.mem_append_left _ (ih h).2⟩

theorem tokenChar_of_mem (h : c ∈ normalizeTag tag) : isTokenChar c = true ∨ c = 95 := by
  rcases mem_intercalate h with rfl | ⟨w, hw, hc⟩
  · exact .inr rfl
  · exact .inl (by simpa using (isWord_of_mem hw).not_sep c hc)

theorem lowerCase_eq_self (h : ∀ c ∈ s, isTokenChar c = true ∨ c = 95) : lowerCase s = s := by
  induction s with
  | nil => rfl
  | cons c s ih =>
    obtain ⟨hc, hs⟩ := List.forall_mem_cons.mp h
    have hkeep : lowerChar c = [c] := by
      simp only [isTokenChar, Bool.or_eq_true, Bool.and_eq_true, decide_eq_true_eq] at hc
      rw [lowerChar, if_neg (by omega), if_neg (by omega), if_neg (by omega)]
    rw [lowerCase, List.flatMap_cons, hkeep, List.singleton_append]
    exact congrArg (c :: ·) (ih hs)

theorem normalizeTag_normalizeTag : normalizeTag (normalizeTag tag) = normalizeTag tag := by
  have hlower : lowerCase (normalizeTag tag) = normalizeTag tag :=
    lowerCase_eq_self fun c hc => tokenChar_of_mem hc
  have hfind : findTokens (normalizeTag tag) = findTokens (lowerCase tag) :=
    words_intercalate (fun w hw => isWord_of_mem hw) (by decide)
  rw [normalizeTag, hlower, hfind]
  rfl

theorem normalized_of_mem (h : token ∈ normalizeTags tags) : Normalized token := by
  obtain ⟨hne, hmem⟩ := mem_collect (List.mem_of_mem_take h)
  obtain ⟨tag, -, rfl⟩ := List.mem_map.mp hmem
  exact ⟨by simpa using hne, normalizeTag_normalizeTag⟩

theorem Normalized.tokenChar (h : Normalized token) : ∀ c ∈ token, isTokenChar c = true ∨ c = 95 := by
  intro c hc
  rw [← h.fixed] at hc
  exact tokenChar_of_mem hc

/-- No tag has a wildcard for any text. -/
theorem Normalized.percent_not_mem (h : Normalized token) : 37 ∉ token := by
  intro hmem
  rcases h.tokenChar 37 hmem with hc | hc <;> simp [isTokenChar] at hc

theorem normalizeTag_normalized (h : normalizeTag tag ≠ []) : Normalized (normalizeTag tag) :=
  ⟨h, normalizeTag_normalizeTag⟩

/-- A normalized tag is one word of the packed text. -/
theorem Normalized.isWord (h : Normalized token) : IsWord isSpace token := by
  refine ⟨h.ne_nil, fun c hc => ?_⟩
  have hchar := h.tokenChar c hc
  simp only [isTokenChar, Bool.or_eq_true, Bool.and_eq_true, decide_eq_true_eq] at hchar
  have hbounds : 48 ≤ c ∧ c ≤ 122 := by omega
  simp only [isSpace, Bool.or_eq_false_iff, Bool.and_eq_false_iff, decide_eq_false_iff_not,
    beq_eq_false_iff_ne]
  omega

theorem normalizeTags_singleton (h : normalizeTag tag ≠ []) :
    normalizeTags (some [tag]) = [normalizeTag tag] := by
  simp [normalizeTags, collect, h, maxTags]

theorem normalizeTags_nodup : (normalizeTags tags).Nodup :=
  collect_nodup.sublist (List.take_sublist _ _)

theorem length_normalizeTags_le : (normalizeTags tags).length ≤ maxTags := List.length_take_le _ _

/-- Every tag with a blank after it, and one before the first. -/
theorem encodeTags_eq (h : normalizeTags tags ≠ []) :
    encodeTags tags = 32 :: (normalizeTags tags).flatMap (· ++ [32]) := by
  rw [encodeTags, if_neg h, List.cons_append, intercalate_append h]

theorem decodeTags_encodeTags : decodeTags (encodeTags tags) = normalizeTags tags := by
  by_cases h : normalizeTags tags = []
  · simp [encodeTags, decodeTags, split, h]
  · have hwords : ∀ w ∈ normalizeTags tags, IsWord isSpace w := fun w hw =>
      (normalized_of_mem hw).isWord
    rw [encodeTags_eq h, decodeTags, split, words_cons_sep (by decide)]
    exact words_terminated hwords (by decide)

namespace Packed

variable (hp : Packed text)

include hp

theorem normalized : ∀ t ∈ decodeTags text, Normalized t := by
  obtain ⟨tags, rfl⟩ := hp
  rw [decodeTags_encodeTags]
  exact fun t ht => normalized_of_mem ht

theorem nodup : (decodeTags text).Nodup := by
  obtain ⟨tags, rfl⟩ := hp
  rw [decodeTags_encodeTags]
  exact normalizeTags_nodup

theorem length_le : (decodeTags text).length ≤ maxTags := by
  obtain ⟨tags, rfl⟩ := hp
  rw [decodeTags_encodeTags]
  exact length_normalizeTags_le

/-- A tag of the list stands between two blanks of the text. -/
theorem infix_of_mem (h : token ∈ decodeTags text) : 32 :: token ++ [32] <:+: text := by
  obtain ⟨tags, rfl⟩ := hp
  rw [decodeTags_encodeTags] at h
  rw [encodeTags_eq (List.ne_nil_of_mem h)]
  exact terminated_infix h

/-- The text has nothing but the characters of tags, and blanks. -/
theorem char_of_mem (h : c ∈ text) : isTokenChar c = true ∨ c = 95 ∨ c = 32 := by
  obtain ⟨tags, rfl⟩ := hp
  by_cases hnil : normalizeTags tags = []
  · simp [encodeTags, hnil] at h
  · rw [encodeTags_eq hnil] at h
    rcases List.mem_cons.mp h with rfl | h
    · simp
    · obtain ⟨token, htoken, hc⟩ := List.mem_flatMap.mp h
      rcases List.mem_append.mp hc with hc | hc
      · rcases (normalized_of_mem htoken).tokenChar c hc with hc | hc
        · exact .inl hc
        · exact .inr (.inl hc)
      · exact .inr (.inr (List.mem_singleton.mp hc))

end Packed

theorem length_cleanSummary_le (s : Str) : (cleanSummary s).length ≤ maxSummaryLen :=
  List.length_take_le _ _

end Hologotchi.Memory
