import Hologotchi.Memory.Invariant

/-! What the operations that select by tag take the tag to mean. -/
namespace Hologotchi.Memory

open Python Library.Like Library.Table

/-- The row's tag list has the token. -/
def Row.carries (token : Str) (row : Row) : Bool := token ∈ decodeTags row.tags

/-- A character of a token and one of a text; an underscore stands for any one character. -/
def Resembles (c d : ℕ) : Prop := c = 95 ∨ c = d

/-- The row lacks the token, but its tags text has a stretch that the token resembles. -/
def Row.Mistakable (token : Str) (row : Row) : Prop :=
  row.carries token = false ∧ Occurs Resembles token row.tags

/-- The operations that select by the tag all go by the tag lists of the rows. -/
structure OneMeaning (s : Store) (tag : Str) : Prop where
  forgets : s.forgetBy { tag := some tag } =
    .ok (count (·.carries (normalizeTag tag)) s.rows,
      { s with rows := delete (·.carries (normalizeTag tag)) s.rows })
  counts : ∃ hit, CountFilter.condition { tag := some tag } = .ok hit ∧
    s.countBy { tag := some tag } = .ok (count hit s.rows) ∧
    ∀ row ∈ s.rows, hit row = row.carries (normalizeTag tag)
  retrieves : ∀ (e : Engine) (now : ℚ) (q : Query) (records : List MemoryRecord) (t : Store),
    q.tags = some [tag] → s.retrieve e now q = .ok (records, t) →
    ∀ record ∈ records, normalizeTag tag ∈ record.tags

variable {e : Engine} {s t : Store} {tag token text : Str} {row : Row} {now : ℚ} {q : Query}

theorem foldCase_eq_self {c : ℕ} (h : isTokenChar c = true ∨ c = 95 ∨ c = 32) : foldCase c = c := by
  simp only [isTokenChar, Bool.or_eq_true, Bool.and_eq_true, decide_eq_true_eq] at h
  exact if_neg (by omega)

/-- `%token%` finds the token anywhere in the text, inside of tags and across them. -/
theorem like_within_token (htoken : Normalized token) (htext : Packed text) :
    like (within token) text = true ↔ Occurs Resembles token text := by
  have hfold : ∀ c ∈ token, ∀ d ∈ text, foldCase c = foldCase d ↔ c = d := by
    intro c hc d hd
    have hc : isTokenChar c = true ∨ c = 95 ∨ c = 32 := by
      rcases htoken.tokenChar c hc with hc | hc
      · exact .inl hc
      · exact .inr (.inl hc)
    rw [foldCase_eq_self hc, foldCase_eq_self (htext.char_of_mem hd)]
  rw [within, like_within htoken.percent_not_mem]
  constructor
  · intro h
    exact h.mono fun c hc d hd => Or.imp_right (hfold c hc d hd).mp
  · intro h
    exact h.mono fun c hc d hd => Or.imp_right (hfold c hc d hd).mpr

/-- `% token %` finds every tag it is meant for. -/
theorem like_delimited_of_mem (htoken : Normalized token) (htext : Packed text)
    (h : token ∈ decodeTags text) : like (within (32 :: token ++ [32])) text = true := by
  have hpercent : 37 ∉ 32 :: token ++ [32] := by simp [htoken.percent_not_mem]
  rw [within, like_within hpercent]
  exact occurs_of_infix (fun c _ => .inr rfl) (htext.infix_of_mem h)

/-- Where `% token %` finds something, `%token%` does. -/
theorem like_within_of_delimited (htoken : Normalized token)
    (h : like (within (32 :: token ++ [32])) text = true) : like (within token) text = true := by
  have hpercent : 37 ∉ 32 :: token ++ [32] := by simp [htoken.percent_not_mem]
  rw [within, like_within hpercent] at h
  rw [within, like_within htoken.percent_not_mem]
  exact h.inner

/-- Where no row is mistakable, both patterns find exactly the rows that carry the token. -/
theorem like_iff_carries (htoken : Normalized token) (hpacked : Packed row.tags)
    (h : ¬ row.Mistakable token) :
    like (within token) row.tags = row.carries token ∧
      like (within (32 :: token ++ [32])) row.tags = row.carries token := by
  cases hcarries : row.carries token with
  | true =>
    have hdelimited := like_delimited_of_mem htoken hpacked (by simpa [Row.carries] using hcarries)
    exact ⟨like_within_of_delimited htoken hdelimited, hdelimited⟩
  | false =>
    have hwithin : like (within token) row.tags = false := by
      by_contra hlike
      have hoccurs := (like_within_token htoken hpacked).mp (by simpa using hlike)
      exact h ⟨hcarries, hoccurs⟩
    refine ⟨hwithin, ?_⟩
    by_contra hlike
    have hfound := like_within_of_delimited htoken (by simpa using hlike)
    simp [hwithin] at hfound

/-- What a retrieval by one tag returns carries it where no row is mistakable. -/
theorem retrieves_carriers (htag : normalizeTag tag ≠ []) (hpacked : ∀ row ∈ s.rows, Packed row.tags)
    (h : ∀ row ∈ s.rows, ¬ row.Mistakable (normalizeTag tag)) (hq : q.tags = some [tag])
    {records : List MemoryRecord} (hretrieve : s.retrieve e now q = .ok (records, t)) :
    ∀ record ∈ records, normalizeTag tag ∈ record.tags := by
  have htags : normalizeTags q.tags = [normalizeTag tag] := by
    rw [hq, normalizeTags_singleton htag]
  rcases (retrieve_ok hretrieve).1 with rfl | rfl
  · simp
  · intro record hrecord
    obtain ⟨row, hrow, rfl⟩ := List.mem_map.mp hrecord
    obtain ⟨hmem, hlike⟩ := like_of_mem_ranked (by simp [htags]) hrow
    have hfound := hlike (normalizeTag tag) (by simp [htags])
    have hcarries := like_iff_carries (normalizeTag_normalized htag) (hpacked row hmem) (h row hmem)
    rw [hcarries.1] at hfound
    exact of_decide_eq_true hfound

/-- The operations agree on a tag exactly where no row that lacks it is mistakable for one that
carries it. -/
theorem one_meaning_iff (s : Store) (tag : Str) (hpacked : ∀ row ∈ s.rows, Packed row.tags)
    (htag : normalizeTag tag ≠ []) :
    OneMeaning s tag ↔ ∀ row ∈ s.rows, ¬ row.Mistakable (normalizeTag tag) := by
  have htoken := normalizeTag_normalized htag
  constructor
  · intro h row hrow hmistakable
    have hforgets := h.forgets
    rw [forgetBy_tag htag] at hforgets
    simp only [Except.ok.injEq, Prod.mk.injEq, Store.mk.injEq, and_true] at hforgets
    have hlike := delete_eq_iff.mp hforgets.2 row hrow
    rw [hmistakable.1] at hlike
    have hfound := (like_within_token htoken (hpacked row hrow)).mpr hmistakable.2
    simp [hlike] at hfound
  · intro h
    have hcarries : ∀ row ∈ s.rows, _ := fun row hrow =>
      like_iff_carries htoken (hpacked row hrow) (h row hrow)
    have hwithin : ∀ row ∈ s.rows, like (within (normalizeTag tag)) row.tags =
        row.carries (normalizeTag tag) := fun row hrow => (hcarries row hrow).1
    have hdelimited : ∀ row ∈ s.rows, like (within (32 :: normalizeTag tag ++ [32])) row.tags =
        row.carries (normalizeTag tag) := fun row hrow => (hcarries row hrow).2
    constructor
    · rw [forgetBy_tag htag, count_congr hwithin, delete_eq_iff.mpr hwithin]
    · refine ⟨_, countCondition_tag htag, ?_, hdelimited⟩
      rw [Store.countBy, countCondition_tag htag]
      rfl
    · intro e now q records t hq hretrieve
      exact retrieves_carriers htag hpacked h hq hretrieve

/-- A double tap as the loop captures it. -/
def playInvite : Moment where
  source := str "touch"
  summary := str "Touch input: a double-tap play invite."
  tags := some [str "touch", str "play_invite"]
  valence := 50
  intensity := 55
  ownerInitiated := true

/-- A new store after one double tap. -/
def inviteStore : Store := ({} : Store).insert (({} : Store).newRow playInvite .episodic 0)

theorem one_meaning_iff_touch : OneMeaning inviteStore (str "touch") := by
  apply (one_meaning_iff inviteStore (str "touch") ?_ (by decide +kernel)).mpr
  · intro row hrow hmistakable
    obtain rfl := List.mem_singleton.mp hrow
    have hcarries : (({} : Store).newRow playInvite .episodic 0).carries
        (normalizeTag (str "touch")) = true := by decide +kernel
    exact Bool.noConfusion (hcarries.symm.trans hmistakable.1)
  · intro row hrow
    obtain rfl := List.mem_singleton.mp hrow
    exact ⟨playInvite.tags, rfl⟩

/-- Forgetting "play" deletes the play invite, which `count_by` does not count under "play". -/
theorem play_invite_forgotten :
    ({} : Store).capture (.stable fun _ => 1) 0 playInvite = .ok (some 1, inviteStore) ∧
      inviteStore.countBy { tag := some (str "play") } = .ok 0 ∧
      inviteStore.forgetBy { tag := some (str "play") } = .ok (1, inviteStore.reset) ∧
      ¬ OneMeaning inviteStore (str "play") := by
  have htag : normalizeTag (str "play") ≠ [] := by decide +kernel
  have hforget : inviteStore.forgetBy { tag := some (str "play") } = .ok (1, inviteStore.reset) := by
    have hcount : count (fun row => like (within (normalizeTag (str "play"))) row.tags)
        inviteStore.rows = 1 := by decide +kernel
    have hdelete : delete (fun row => like (within (normalizeTag (str "play"))) row.tags)
        inviteStore.rows = [] := by decide +kernel
    rw [forgetBy_tag htag, hcount, hdelete]
    rfl
  refine ⟨?_, by decide +kernel, hforget, fun h => ?_⟩
  · have hnone : ({} : Store).findRecentDuplicate (.stable fun _ => 1) playInvite.source
        (cleanSummary playInvite.summary) 0 = none := by
      simp [Store.findRecentDuplicate, Engine.stable]
    have hkind : checkKind playInvite.kind = .ok .episodic := by decide +kernel
    have hsource : bindText playInvite.source = .ok () := by decide +kernel
    have hsummary : bindText (cleanSummary playInvite.summary) = .ok () := by decide +kernel
    have hne : cleanSummary playInvite.summary ≠ [] := by decide +kernel
    have hsalient : ¬ ({} : Store).importanceOf playInvite < importanceThreshold := by decide +kernel
    rw [Store.capture, if_neg (by decide), if_neg hne, hkind, hsource, hsummary]
    simp only [bind, Except.bind, hnone, if_neg hsalient]
    rfl
  · have hforgets := h.forgets
    rw [hforget] at hforgets
    have hcount : count (·.carries (normalizeTag (str "play"))) inviteStore.rows = 0 := by
      decide +kernel
    simp [hcount] at hforgets

end Hologotchi.Memory
