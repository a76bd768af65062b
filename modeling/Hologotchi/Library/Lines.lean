import Hologotchi.Library.Runs
import Mathlib.Data.List.Forall2
import Mathlib.Data.List.Induction
import Mathlib.Tactic.Ring

/-! Lines in a stream that arrives in segments, and a reader that forgets an unterminated line
once too much of it is buffered. -/
namespace Hologotchi.Library.Lines

variable {α : Type*}

/-- Put `p` before the first line. -/
def extend (p : List α) : List (List α) × List α → List (List α) × List α
  | ([], rest) => ([], p ++ rest)
  | (l :: ls, rest) => ((p ++ l) :: ls, rest)

def joinLines (sep : α) (ls : List (List α)) (rest : List α) : List α :=
  ls.flatMap (· ++ [sep]) ++ rest

/-- A way to cut a stream into reads. -/
structure Segments (recv : ℕ) (stream : List α) (chunks : List (List α)) : Prop where
  flatten_eq : chunks.flatten = stream
  ne_nil : ∀ c ∈ chunks, c ≠ []
  length_le : ∀ c ∈ chunks, c.length ≤ recv

variable {sep : α} {cap recv n q d : ℕ} {p l s c buffer rest stream : List α}
  {ls ss chunks : List (List α)}

theorem extend_nil (r : List (List α) × List α) : extend [] r = r := by
  obtain ⟨ls, rest⟩ := r
  cases ls <;> rfl

theorem extend_extend (a b : List α) (r : List (List α) × List α) :
    extend a (extend b r) = extend (a ++ b) r := by
  obtain ⟨ls, rest⟩ := r
  cases ls <;> simp [extend]

theorem joinLines_extend (p : List α) (r : List (List α) × List α) :
    joinLines sep (extend p r).1 (extend p r).2 = p ++ joinLines sep r.1 r.2 := by
  obtain ⟨ls, rest⟩ := r
  cases ls <;> simp [extend, joinLines]

theorem length_lt_joinLines (h : l ∈ ls) : l.length < (joinLines sep ls rest).length := by
  obtain ⟨before, after, rfl⟩ := List.append_of_mem h
  simp only [joinLines, List.flatMap_append, List.flatMap_cons, List.length_append,
    List.length_singleton]
  omega

theorem length_rest_le : rest.length ≤ (joinLines sep ls rest).length := by
  simp [joinLines]

/-! ### What a bounded reader can lose -/

/-- How much of the front of a line can have been forgotten: some reads each found more than
`cap` and at most `cap + recv` of it in the buffer. -/
inductive Dropped (cap recv : ℕ) : ℕ → Prop
  | none : Dropped cap recv 0
  | more {q d : ℕ} : Dropped cap recv q → cap < d → d ≤ cap + recv → Dropped cap recv (q + d)

/-- The part of a line that can be left when its terminator arrives. -/
def Left (cap recv : ℕ) (l s : List α) : Prop :=
  ∃ q, Dropped cap recv q ∧ q ≤ l.length ∧ l.length < q + cap + recv ∧ s = l.drop q

/-- What is kept of a buffer before the next read. -/
def keep (cap : ℕ) (buffer : List α) : List α := if cap < buffer.length then [] else buffer

/-- A buffer that can be left of the unterminated line `p` after a read. -/
def Buffered (cap recv : ℕ) (p buffer : List α) : Prop :=
  ∃ q, Dropped cap recv q ∧ q ≤ p.length ∧ p.length ≤ q + cap ∧ buffer = p.drop q

theorem dropped_iff : Dropped cap recv q ↔ ∃ k, k * (cap + 1) ≤ q ∧ q ≤ k * (cap + recv) := by
  constructor
  · intro h
    induction h with
    | none => exact ⟨0, by simp⟩
    | more _ hlow hhigh ih =>
      obtain ⟨k, hk⟩ := ih
      refine ⟨k + 1, ?_⟩
      rw [Nat.succ_mul, Nat.succ_mul]
      omega
  · rintro ⟨k, hk⟩
    induction k generalizing q with
    | zero =>
      obtain rfl : q = 0 := by omega
      exact .none
    | succ k ih =>
      rw [Nat.succ_mul, Nat.succ_mul] at hk
      -- The last drop takes what the earlier ones cannot, and at least the minimum.
      have hrecv : 0 < recv := by
        rcases Nat.eq_zero_or_pos recv with rfl | hrecv
        · have hmono : k * (cap + 0) ≤ k * (cap + 1) := Nat.mul_le_mul_left k (by omega)
          omega
        · exact hrecv
      have hmax : ∃ d, cap < d ∧ d ≤ cap + recv ∧ d ≤ q ∧ k * (cap + 1) ≤ q - d ∧
          q - d ≤ k * (cap + recv) := by
        by_cases hd : q ≤ k * (cap + recv) + (cap + 1)
        · exact ⟨cap + 1, by omega⟩
        · have hmono : k * (cap + 1) ≤ k * (cap + recv) :=
            Nat.mul_le_mul_left k (by omega)
          exact ⟨q - k * (cap + recv), by omega⟩
      obtain ⟨d, hlow, hhigh, hle, hq⟩ := hmax
      have hdropped := Dropped.more (ih hq) hlow hhigh
      rwa [Nat.sub_add_cancel hle] at hdropped

theorem dropped_eq_zero (h : Dropped cap recv q) (hq : q ≤ cap) : q = 0 := by
  cases h with
  | none => rfl
  | more => omega

/-- A line that fits is always left whole. -/
theorem left_of_length_le (h : Left cap recv l s) (hl : l.length ≤ cap) : s = l := by
  obtain ⟨q, hdropped, hq, -, rfl⟩ := h
  rw [dropped_eq_zero hdropped (by omega), List.drop_zero]

/-- Lines that all fit are all left whole. -/
theorem lefts_of_length_le (h : List.Forall₂ (Left cap recv) ls ss)
    (hls : ∀ l ∈ ls, l.length ≤ cap) : ss = ls := by
  induction h with
  | nil => rfl
  | cons hleft _ ih =>
    obtain ⟨hl, hls⟩ := List.forall_mem_cons.mp hls
    rw [left_of_length_le hleft hl, ih hls]

theorem exists_left (hrecv : 0 < recv) (l : List α) : ∃ s, Left cap recv l s := by
  have hmod := Nat.mod_lt l.length (show 0 < cap + recv by omega)
  have hdiv := Nat.div_add_mod l.length (cap + recv)
  rw [Nat.mul_comm] at hdiv
  refine ⟨_, l.length / (cap + recv) * (cap + recv), dropped_iff.mpr ⟨_, ?_, Nat.le_refl _⟩,
    by omega, by omega, rfl⟩
  exact Nat.mul_le_mul_left _ (by omega)

theorem exists_lefts (hrecv : 0 < recv) (ls : List (List α)) :
    ∃ ss, List.Forall₂ (Left cap recv) ls ss := by
  induction ls with
  | nil => exact ⟨[], .nil⟩
  | cons l ls ih =>
    obtain ⟨s, hs⟩ := exists_left hrecv l
    obtain ⟨ss, hss⟩ := ih
    exact ⟨s :: ss, .cons hs hss⟩

section Parsing

variable {β : Type*} {f : List α → Option β}

/-- When no part left of a long line parses, exactly the lines that fit count. -/
theorem filterMap_lefts (h : List.Forall₂ (Left cap recv) ls ss)
    (hlong : ∀ l ∈ ls, cap < l.length → ∀ s, Left cap recv l s → f s = none) :
    ss.filterMap f = (ls.filter (·.length ≤ cap)).filterMap f := by
  induction h with
  | nil => rfl
  | @cons l s ls ss hleft _ ih =>
    obtain ⟨hl, hls⟩ := List.forall_mem_cons.mp hlong
    have hmore := ih hls
    by_cases hfits : l.length ≤ cap
    · rw [left_of_length_le hleft hfits, List.filter_cons_of_pos (by simpa using hfits)]
      simp [List.filterMap_cons, hmore]
    · rw [List.filter_cons_of_neg (by simpa using hfits), List.filterMap_cons_none, hmore]
      exact hl (by omega) s hleft

/-- At least the lines that fit count. -/
theorem length_filterMap_lefts (h : List.Forall₂ (Left cap recv) ls ss) :
    ((ls.filter (·.length ≤ cap)).filterMap f).length ≤ (ss.filterMap f).length := by
  induction h with
  | nil => exact Nat.le_refl _
  | @cons l s ls ss hleft _ ih =>
    by_cases hfits : l.length ≤ cap
    · rw [left_of_length_le hleft hfits, List.filter_cons_of_pos (by simpa using hfits)]
      cases hf : f l with
      | none => simpa [List.filterMap_cons, hf] using ih
      | some b => simpa [List.filterMap_cons, hf] using ih
    · rw [List.filter_cons_of_neg (by simpa using hfits)]
      have hcons : (ss.filterMap f).length ≤ ((s :: ss).filterMap f).length := by
        cases hf : f s with
        | none => simp [hf]
        | some b => simp [hf]
      omega

end Parsing

theorem buffered_keep (hq : Dropped cap recv q) (hle : q ≤ p.length)
    (hlen : p.length ≤ q + cap + recv) : Buffered cap recv p (keep cap (p.drop q)) := by
  have hdrop : (p.drop q).length = p.length - q := List.length_drop
  simp only [keep]
  split
  · refine ⟨q + (p.length - q), .more hq (by omega) (by omega), by omega, by omega, ?_⟩
    exact (List.drop_of_length_le (by omega)).symm
  · exact ⟨q, hq, hle, by omega, rfl⟩

/-! ### Segments -/

theorem segments_append {s t : List α} {cs ds : List (List α)} (hs : Segments recv s cs)
    (ht : Segments recv t ds) : Segments recv (s ++ t) (cs ++ ds) where
  flatten_eq := by rw [List.flatten_append, hs.flatten_eq, ht.flatten_eq]
  ne_nil := List.forall_mem_append.mpr ⟨hs.ne_nil, ht.ne_nil⟩
  length_le := List.forall_mem_append.mpr ⟨hs.length_le, ht.length_le⟩

/-- A stretch read one element at a time. -/
def singles (l : List α) : List (List α) := l.map ([·])

theorem segments_singles (hrecv : 0 < recv) (l : List α) : Segments recv l (singles l) where
  flatten_eq := by simp [singles, ← List.flatMap_def]
  ne_nil := by simp [singles]
  length_le := by
    intro c hc
    obtain ⟨a, -, rfl⟩ := List.mem_map.mp hc
    exact hrecv

theorem segments_one (hne : c ≠ []) (hlen : c.length ≤ recv) : Segments recv c [c] where
  flatten_eq := by simp
  ne_nil := by simpa using hne
  length_le := by simpa using hlen

/-! ### Line starts -/

/-- Nothing is written since the last terminator. -/
def AtLineStart (sep : α) (p : List α) : Prop := ∀ b ∈ p.getLast?, b = sep

instance [DecidableEq α] (sep : α) (p : List α) : Decidable (AtLineStart sep p) :=
  inferInstanceAs (Decidable (∀ b ∈ p.getLast?, b = sep))

theorem atLineStart_nil (sep : α) : AtLineStart sep [] := by
  intro b hb
  cases hb

theorem atLineStart_line (sep : α) (p : List α) : AtLineStart sep (p ++ [sep]) := by
  simp [AtLineStart]

/-- What is written last decides. -/
theorem atLineStart_append (h : s ≠ []) : AtLineStart sep (p ++ s) ↔ AtLineStart sep s := by
  simp [AtLineStart, List.getLast?_append_of_ne_nil p h]

/-! ### Splitting -/

variable [DecidableEq α]

/-- The terminated lines, without their terminators, and the unterminated rest. -/
def splitLines (sep : α) : List α → List (List α) × List α
  | [] => ([], [])
  | b :: bs =>
    if b = sep then ([] :: (splitLines sep bs).1, (splitLines sep bs).2)
    else extend [b] (splitLines sep bs)

theorem splitLines_append_of_notMem (h : sep ∉ p) :
    splitLines sep (p ++ s) = extend p (splitLines sep s) := by
  induction p with
  | nil => rw [extend_nil, List.nil_append]
  | cons b p ih =>
    obtain ⟨hb, hp⟩ := List.ne_and_not_mem_of_not_mem_cons h
    rw [List.cons_append, splitLines, if_neg (Ne.symm hb), ih hp, extend_extend]
    rfl

theorem splitLines_of_notMem (h : sep ∉ p) : splitLines sep p = ([], p) := by
  have happend := splitLines_append_of_notMem (s := []) h
  simpa [splitLines, extend] using happend

theorem splitLines_line (h : sep ∉ l) : splitLines sep (l ++ sep :: s) =
    (l :: (splitLines sep s).1, (splitLines sep s).2) := by
  rw [splitLines_append_of_notMem h, splitLines, if_pos rfl]
  simp [extend]

/-- Splitting goes on from the rest. -/
theorem splitLines_append (s t : List α) : splitLines sep (s ++ t) =
    ((splitLines sep s).1 ++ (splitLines sep ((splitLines sep s).2 ++ t)).1,
      (splitLines sep ((splitLines sep s).2 ++ t)).2) := by
  induction s with
  | nil => rfl
  | cons b s ih =>
    rw [List.cons_append]
    by_cases hb : b = sep
    · simp only [splitLines, if_pos hb, ih, List.cons_append]
    · have hfree : sep ∉ [b] := by simpa using Ne.symm hb
      rcases hs : splitLines sep s with ⟨_ | ⟨l, ls⟩, rest⟩
      · have hrest : splitLines sep (b :: s) = ([], [b] ++ rest) := by
          rw [splitLines, if_neg hb, hs]
          rfl
        have hst : splitLines sep (s ++ t) = splitLines sep (rest ++ t) := by
          rw [ih, hs]
          rfl
        rw [hrest, splitLines, if_neg hb, hst, ← splitLines_append_of_notMem hfree,
          List.append_assoc]
        rfl
      · rw [hs] at ih
        simp only [splitLines, if_neg hb, ih, hs, extend, List.cons_append]

theorem joinLines_splitLines (sep : α) (s : List α) :
    joinLines sep (splitLines sep s).1 (splitLines sep s).2 = s := by
  induction s with
  | nil => rfl
  | cons b s ih =>
    by_cases hb : b = sep
    · simp only [splitLines, if_pos hb]
      simpa [joinLines, hb] using ih
    · simp only [splitLines, if_neg hb]
      rw [joinLines_extend, ih]
      rfl

/-- Neither the lines nor the rest have a terminator inside. -/
theorem notMem_splitLines (sep : α) (s : List α) :
    (∀ l ∈ (splitLines sep s).1, sep ∉ l) ∧ sep ∉ (splitLines sep s).2 := by
  induction s with
  | nil => simp [splitLines]
  | cons b s ih =>
    obtain ⟨hlines, hrest⟩ := ih
    by_cases hb : b = sep
    · simpa [splitLines, hb, hrest] using hlines
    · have hb' : sep ≠ b := Ne.symm hb
      simp only [splitLines, if_neg hb]
      rcases hr : splitLines sep s with ⟨_ | ⟨l, ls⟩, rest⟩
      · simp_all [extend]
      · simp_all [extend]

/-- A terminator ends the line that was open. -/
theorem splitLines_snoc_sep (sep : α) (s : List α) : splitLines sep (s ++ [sep]) =
    ((splitLines sep s).1 ++ [(splitLines sep s).2], []) := by
  obtain ⟨-, hrest⟩ := notMem_splitLines sep s
  rw [splitLines_append, splitLines_line hrest]
  rfl

/-- Anything else goes on with it. -/
theorem splitLines_snoc {b : α} (h : b ≠ sep) (s : List α) : splitLines sep (s ++ [b]) =
    ((splitLines sep s).1, (splitLines sep s).2 ++ [b]) := by
  obtain ⟨-, hrest⟩ := notMem_splitLines sep s
  have hopen : sep ∉ (splitLines sep s).2 ++ [b] := by simp [hrest, Ne.symm h]
  rw [splitLines_append, splitLines_of_notMem hopen, List.append_nil]

theorem splitLines_atLineStart (h : AtLineStart sep p) : (splitLines sep p).2 = [] := by
  rcases List.eq_nil_or_concat p with rfl | ⟨q, b, rfl⟩
  · rfl
  · have hb : b = sep := h b (by simp)
    rw [hb, List.concat_eq_append, splitLines_snoc_sep]

/-- A line written at a line start is one of the lines read. -/
theorem mem_splitLines (hp : AtLineStart sep p) (hl : sep ∉ l) :
    l ∈ (splitLines sep (p ++ (l ++ [sep]) ++ s)).1 := by
  rw [List.append_assoc, splitLines_append, splitLines_atLineStart hp]
  simp [splitLines_line hl]

/-! ### Beginnings of joined lines -/

theorem length_splitLines (sep : α) (s : List α) :
    (splitLines sep s).1.length = s.count sep := by
  induction s using List.reverseRecOn with
  | nil => rfl
  | append_singleton s b ih =>
    by_cases hb : b = sep
    · subst hb
      rw [splitLines_snoc_sep, List.length_append, ih, List.count_append, List.count_singleton_self]
      rfl
    · rw [splitLines_snoc hb, ih, List.count_append, List.count_singleton, if_neg (by simpa using hb),
        Nat.add_zero]

theorem splitLines_joinLines (hls : ∀ l ∈ ls, sep ∉ l) (hrest : sep ∉ rest) :
    splitLines sep (joinLines sep ls rest) = (ls, rest) := by
  induction ls with
  | nil => exact splitLines_of_notMem hrest
  | cons l ls ih =>
    obtain ⟨hl, hls⟩ := List.forall_mem_cons.mp hls
    have hjoin : joinLines sep (l :: ls) rest = l ++ sep :: joinLines sep ls rest := by
      simp [joinLines]
    rw [hjoin, splitLines_line hl, ih hls]

/-- The lines of a beginning are the first lines. -/
theorem splitLines_of_cut (hls : ∀ l ∈ ls, sep ∉ l) (hrest : sep ∉ rest)
    (h : p <+: joinLines sep ls rest) : (splitLines sep p).1 = ls.take (p.count sep) := by
  obtain ⟨q, hq⟩ := h
  have hsplit : (splitLines sep (p ++ q)).1 = ls := by rw [hq, splitLines_joinLines hls hrest]
  rw [splitLines_append] at hsplit
  rw [← length_splitLines, ← hsplit, List.take_left]

/-- What is open at the end of a beginning is part of one line, or of the rest. -/
theorem length_open_le (hls : ∀ l ∈ ls, sep ∉ l ∧ l.length ≤ cap)
    (hrest : sep ∉ rest ∧ rest.length ≤ cap) (h : p <+: joinLines sep ls rest) :
    (splitLines sep p).2.length ≤ cap := by
  obtain ⟨q, hq⟩ := h
  obtain ⟨-, hopen⟩ := notMem_splitLines sep p
  have hsplit := splitLines_joinLines (fun l hl => (hls l hl).1) hrest.1
  rw [← hq, splitLines_append, splitLines_append_of_notMem hopen] at hsplit
  obtain ⟨hlines, hlast⟩ := Prod.mk.inj hsplit
  cases hmore : splitLines sep q with
  | mk more last =>
    rw [hmore] at hlines hlast
    cases more with
    | nil =>
      have hlen := hrest.2
      rw [← hlast, extend, List.length_append] at hlen
      omega
    | cons l more =>
      have hlen := (hls ((splitLines sep p).2 ++ l) (hlines ▸ by simp [extend])).2
      rw [List.length_append] at hlen
      omega

/-! ### Reading in segments -/

/-- One read: the lines it completes, and the buffer it leaves. -/
def receive (sep : α) (cap : ℕ) (buffer chunk : List α) : List α × List (List α) :=
  let r := splitLines sep (buffer ++ chunk)
  (keep cap r.2, r.1)

/-- The lines a reader completes over all reads. -/
def received (sep : α) (cap : ℕ) (buffer : List α) (chunks : List (List α)) : List (List α) :=
  (answers (receive sep cap) buffer chunks).flatten

@[simp] theorem received_nil : received sep cap buffer [] = [] := rfl

@[simp] theorem received_cons : received sep cap buffer (c :: chunks) =
    (receive sep cap buffer c).2 ++ received sep cap (receive sep cap buffer c).1 chunks := rfl

/-- One read completes each line as far as it is left, and buffers what it can. -/
theorem receive_step (hp : sep ∉ p) (hb : Buffered cap recv p buffer) (hc : c.length ≤ recv) :
    List.Forall₂ (Left cap recv) (splitLines sep (p ++ c)).1 (receive sep cap buffer c).2 ∧
      Buffered cap recv (splitLines sep (p ++ c)).2 (receive sep cap buffer c).1 := by
  obtain ⟨q, hq, hle, hlen, rfl⟩ := hb
  have hdrop : sep ∉ p.drop q := by
    intro h
    exact hp (List.mem_of_mem_drop h)
  have hjoin := joinLines_splitLines sep c
  simp only [receive, splitLines_append_of_notMem hp, splitLines_append_of_notMem hdrop]
  rcases hsplit : splitLines sep c with ⟨_ | ⟨l, ls⟩, r⟩
  · -- The read ends inside the line.
    rw [hsplit] at hjoin
    have hr : r = c := hjoin
    simp only [extend]
    rw [← List.drop_append_of_le_length hle, hr]
    refine ⟨.nil, buffered_keep hq ?_ ?_⟩
    · rw [List.length_append]
      omega
    · rw [List.length_append]
      omega
  · -- The read ends the line; every other line of it starts there.
    rw [hsplit] at hjoin
    have hlines : ∀ x ∈ l :: ls, x.length < recv := by
      intro x hx
      have hlt : x.length < (joinLines sep (l :: ls) r).length := length_lt_joinLines hx
      rw [hjoin] at hlt
      omega
    have hrest : r.length ≤ (joinLines sep (l :: ls) r).length := length_rest_le
    rw [hjoin] at hrest
    have hfirst := hlines l List.mem_cons_self
    simp only [extend]
    rw [← List.drop_append_of_le_length hle]
    refine ⟨.cons ⟨q, hq, ?_, ?_, rfl⟩ ?_, buffered_keep (q := 0) .none (Nat.zero_le _) ?_⟩
    · rw [List.length_append]
      omega
    · rw [List.length_append]
      omega
    · refine List.forall₂_same.mpr fun x hx => ⟨0, .none, Nat.zero_le _, ?_, rfl⟩
      have hlt := hlines x (List.mem_cons_of_mem l hx)
      omega
    · omega

/-- Over any segmentation. -/
theorem received_left (hp : sep ∉ p) (hb : Buffered cap recv p buffer)
    (hc : ∀ c ∈ chunks, c.length ≤ recv) :
    List.Forall₂ (Left cap recv) (splitLines sep (p ++ chunks.flatten)).1
        (received sep cap buffer chunks) ∧
      Buffered cap recv (splitLines sep (p ++ chunks.flatten)).2
        (finalState (receive sep cap) buffer chunks) := by
  induction chunks generalizing p buffer with
  | nil =>
    have hsplit : splitLines sep (p ++ ([] : List (List α)).flatten) = ([], p) := by
      simpa using splitLines_of_notMem hp
    rw [hsplit]
    exact ⟨.nil, hb⟩
  | cons c cs ih =>
    obtain ⟨hc, hcs⟩ := List.forall_mem_cons.mp hc
    obtain ⟨hlines, hbuffer⟩ := receive_step hp hb hc
    obtain ⟨hmore, hfinal⟩ := ih (notMem_splitLines sep _).2 hbuffer hcs
    rw [List.flatten_cons, ← List.append_assoc, splitLines_append]
    refine ⟨?_, hfinal⟩
    rw [received_cons]
    exact List.rel_append hlines hmore

theorem segments_left (sep : α) (cap : ℕ) (h : Segments recv stream chunks) :
    List.Forall₂ (Left cap recv) (splitLines sep stream).1 (received sep cap [] chunks) ∧
      Buffered cap recv (splitLines sep stream).2 (finalState (receive sep cap) [] chunks) := by
  have hstart : Buffered cap recv ([] : List α) [] := ⟨0, .none, by simp⟩
  have hleft := received_left (List.not_mem_nil (a := sep)) hstart h.length_le
  rwa [List.nil_append, h.flatten_eq] at hleft

/-! ### Choosing the segmentation -/

theorem received_append (cs ds : List (List α)) : received sep cap buffer (cs ++ ds) =
    received sep cap buffer cs ++
      received sep cap (finalState (receive sep cap) buffer cs) ds := by
  simp [received, answers_append]

theorem receive_notMem (hb : sep ∉ buffer) (hc : sep ∉ c) : receive sep cap buffer c =
    (keep cap (buffer ++ c), []) := by
  have hfree : sep ∉ buffer ++ c := by simp [hb, hc]
  simp [receive, splitLines_of_notMem hfree]

theorem singles_keep (hb : sep ∉ buffer) (hl : sep ∉ l) (hlen : buffer.length + l.length ≤ cap) :
    finalState (receive sep cap) buffer (singles l) = buffer ++ l ∧
      received sep cap buffer (singles l) = [] := by
  induction l generalizing buffer with
  | nil => simp [singles, received]
  | cons a l ih =>
    obtain ⟨ha, hl⟩ := List.ne_and_not_mem_of_not_mem_cons hl
    simp only [List.length_cons] at hlen
    have hstep : receive sep cap buffer [a] = (buffer ++ [a], []) := by
      rw [receive_notMem hb (by simpa using ha), keep, if_neg]
      rw [List.length_append, List.length_singleton]
      omega
    have hnext : sep ∉ buffer ++ [a] := by simp [hb, ha]
    have hmore := ih hnext hl (by simp; omega)
    simpa [singles, hstep] using hmore

/-- From an empty buffer, a text that fits is gathered byte by byte. -/
theorem singles_keep_nil (hl : sep ∉ l) (hlen : l.length ≤ cap) :
    finalState (receive sep cap) [] (singles l) = l ∧ received sep cap [] (singles l) = [] := by
  have hfits : ([] : List α).length + l.length ≤ cap := by
    rw [List.length_nil]
    omega
  have hkept := singles_keep List.not_mem_nil hl hfits
  rwa [List.nil_append] at hkept

theorem received_singles_notMem (hb : sep ∉ buffer) (hl : sep ∉ l) :
    received sep cap buffer (singles l) = [] := by
  induction l generalizing buffer with
  | nil => rfl
  | cons a l ih =>
    obtain ⟨ha, hl⟩ := List.ne_and_not_mem_of_not_mem_cons hl
    have hstep : receive sep cap buffer [a] = (keep cap (buffer ++ [a]), []) :=
      receive_notMem hb (by simpa using ha)
    have hnext : sep ∉ keep cap (buffer ++ [a]) := by
      simp only [keep]
      split <;> simp [hb, ha]
    have hmore := ih hnext hl
    simpa [singles, hstep] using hmore

/-- Any amount that can be dropped is dropped by some segmentation. -/
theorem exists_skip (hrecv : 0 < recv) (hq : Dropped cap recv q) (hp : sep ∉ p)
    (hlen : p.length = q) : ∃ chunks, Segments recv p chunks ∧
      finalState (receive sep cap) [] chunks = [] ∧ received sep cap [] chunks = [] := by
  induction hq generalizing p with
  | none =>
    obtain rfl := List.length_eq_zero_iff.mp hlen
    exact ⟨[], ⟨rfl, by simp, by simp⟩, rfl, rfl⟩
  | @more q d _ hlow hhigh ih =>
    -- Buffer as much of the last `d` as needed, then let one full read overflow.
    let u := (p.drop q).take (d - recv)
    let v := (p.drop q).drop (d - recv)
    have huv : u ++ v = p.drop q := List.take_append_drop _ _
    have hulen : u.length = d - recv := by simp [u]; omega
    have hvlen : v.length = d - (d - recv) := by simp [v]; omega
    have hfree : sep ∉ u ++ v := by
      rw [huv]
      intro h
      exact hp (List.mem_of_mem_drop h)
    obtain ⟨hu, hv⟩ := not_or.mp (mt List.mem_append.mpr hfree)
    have hfront : sep ∉ p.take q := by
      intro h
      exact hp (List.mem_of_mem_take h)
    obtain ⟨cs, hcs, hstate, hnone⟩ := ih hfront (by simp; omega)
    have hfits : u.length ≤ cap := by omega
    obtain ⟨hkeep, hquiet⟩ := singles_keep_nil hu hfits
    have hover : receive sep cap u v = ([], []) := by
      rw [receive_notMem hu hv, keep, if_pos]
      rw [List.length_append]
      omega
    have hv1 : v ≠ [] := List.ne_nil_of_length_pos (by omega)
    refine ⟨cs ++ (singles u ++ [v]), ?_, ?_, ?_⟩
    · have hsegments := segments_append hcs
        (segments_append (segments_singles hrecv u) (segments_one hv1 (by omega)))
      rwa [huv, List.take_append_drop] at hsegments
    · simp [finalState_append, hstate, hkeep, hover]
    · simp [received_append, hstate, hnone, hkeep, hquiet, hover]

/-- Whatever can be left of a line, some segmentation leaves. -/
theorem exists_line (hrecv : 0 < recv) (h : Left cap recv l s) (hl : sep ∉ l) :
    ∃ chunks, Segments recv (l ++ [sep]) chunks ∧
      finalState (receive sep cap) [] chunks = [] ∧ received sep cap [] chunks = [s] := by
  obtain ⟨q, hq, hle, hlen, rfl⟩ := h
  let u := (l.drop q).take (l.length - q - (recv - 1))
  let v := (l.drop q).drop (l.length - q - (recv - 1))
  have huv : u ++ v = l.drop q := List.take_append_drop _ _
  have hulen : u.length ≤ cap := by simp [u]; omega
  have hvlen : v.length < recv := by simp [v]; omega
  have hfree : sep ∉ u ++ v := by
    rw [huv]
    intro h
    exact hl (List.mem_of_mem_drop h)
  obtain ⟨hu, -⟩ := not_or.mp (mt List.mem_append.mpr hfree)
  have hfront : sep ∉ l.take q := by
    intro h
    exact hl (List.mem_of_mem_take h)
  obtain ⟨cs, hcs, hstate, hnone⟩ := exists_skip hrecv hq hfront (by simp [hle])
  obtain ⟨hkeep, hquiet⟩ := singles_keep_nil hu hulen
  have hend : receive sep cap u (v ++ [sep]) = ([], [l.drop q]) := by
    have hsplit := splitLines_line (s := []) hfree
    rw [List.append_assoc, huv] at hsplit
    simp [receive, hsplit, splitLines, keep]
  refine ⟨cs ++ (singles u ++ [v ++ [sep]]), ?_, ?_, ?_⟩
  · have hsegments := segments_append hcs (segments_append (segments_singles hrecv u)
      (segments_one (c := v ++ [sep]) (by simp) (by simp; omega)))
    rwa [← List.append_assoc u, huv, ← List.append_assoc, List.take_append_drop] at hsegments
  · simp [finalState_append, hstate, hkeep, hend]
  · simp [received_append, hstate, hnone, hkeep, hquiet, hend]

theorem exists_segments (hrecv : 0 < recv) (h : List.Forall₂ (Left cap recv) ls ss)
    (hls : ∀ l ∈ ls, sep ∉ l) (hrest : sep ∉ rest) :
    ∃ chunks, Segments recv (joinLines sep ls rest) chunks ∧
      received sep cap [] chunks = ss := by
  induction h with
  | nil =>
    refine ⟨singles rest, segments_singles hrecv rest, ?_⟩
    exact received_singles_notMem (by simp) hrest
  | @cons l s ls ss hleft _ ih =>
    obtain ⟨hl, hls⟩ := List.forall_mem_cons.mp hls
    obtain ⟨cs, hcs, hstate, hreceived⟩ := exists_line hrecv hleft hl
    obtain ⟨ds, hds, hmore⟩ := ih hls
    refine ⟨cs ++ ds, ?_, ?_⟩
    · have hsegments := segments_append hcs hds
      have hjoin : joinLines sep (l :: ls) rest = l ++ [sep] ++ joinLines sep ls rest := by
        simp [joinLines]
      rwa [hjoin]
    · rw [received_append, hstate, hreceived, hmore]
      rfl

/-- What the reader can complete: any part that can be left of each line, and nothing else. -/
theorem exists_segments_iff (hrecv : 0 < recv) :
    (∃ chunks, Segments recv stream chunks ∧ received sep cap [] chunks = ss) ↔
      List.Forall₂ (Left cap recv) (splitLines sep stream).1 ss := by
  constructor
  · rintro ⟨chunks, hchunks, rfl⟩
    exact (segments_left sep cap hchunks).1
  · intro h
    obtain ⟨hlines, hrest⟩ := notMem_splitLines sep stream
    have hsegments := exists_segments hrecv h hlines hrest
    rwa [joinLines_splitLines] at hsegments

end Hologotchi.Library.Lines
