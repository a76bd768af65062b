import Hologotchi.Touch.InputFrame
import Hologotchi.Uplink.Client

/-! Gestures through the uplink, and what a segmentation of the stream can change. -/
namespace Hologotchi.Uplink

open Python Library Lines Inputs Touch

/-- `json.loads` reads the flat objects the device emits. -/
def ParsesFrames (loads : Str → Option Json) : Prop :=
  ∀ gesture : Gesture,
    loads (FlatJson.print gesture.inputFields) = some (.ofFlat gesture.inputFields)

/-- The sink call a gesture ends in. -/
def sinkCall (gesture : Gesture) : TouchCall := (str gesture.name, gesture.durationMs)

/-- The bytes of some gestures on the wire, with keepalive newlines between the frames. -/
inductive Emitted : List Gesture → List UInt8 → Prop
  | done : Emitted [] []
  | keepalive {gs : List Gesture} {s : List UInt8} : Emitted gs s → Emitted gs (newline :: s)
  | frame {g : Gesture} {gs : List Gesture} {frame s : List UInt8} :
      encodeInputFrame g = some frame → Emitted gs s → Emitted (g :: gs) (frame ++ s)

variable {loads : Str → Option Json} {gs : List Gesture} {g : Gesture} {line stream : List UInt8}
  {reads : List (List UInt8)} {n q : ℕ}

/-- One ASCII line that fits, ending in its only newline. -/
def IsFrame (frame : List UInt8) : Prop :=
  ∃ body, frame = body ++ [newline] ∧ newline ∉ body ∧ frame.length ≤ inputFrameCapacity ∧
    ∀ b ∈ frame, b < 128

theorem encodeInputFrame_body (g : Gesture) : ∃ body, body =
      encodeAscii (FlatJson.print g.inputFields) ∧
    encodeInputFrame g = some (body ++ [newline]) ∧ newline ∉ body ∧
    (body ++ [newline]).length ≤ inputFrameCapacity ∧ ∀ b ∈ body, b < 128 := by
  obtain ⟨hencode, hlen⟩ := encodeInputFrame_eq g
  have hbyte : ∀ c ∈ FlatJson.print g.inputFields, (UInt8.ofNat c).toNat = c ∧ 33 ≤ c ∧ c ≤ 126 := by
    intro c hc
    have hplain := inputFields_plain hc
    exact ⟨by rw [UInt8.toNat_ofNat']; omega, hplain⟩
  refine ⟨_, rfl, ?_, ?_, ?_, ?_⟩
  · rw [hencode]
    simp [encodeAscii, newline]
  · intro hmem
    obtain ⟨c, hc, hnewline⟩ := List.mem_map.mp hmem
    obtain ⟨hcode, hlow, -⟩ := hbyte c hc
    have hten := congrArg UInt8.toNat hnewline
    rw [hcode] at hten
    have h10 : newline.toNat = 10 := rfl
    omega
  · simpa [encodeAscii] using hlen
  · intro b hb
    obtain ⟨c, hc, rfl⟩ := List.mem_map.mp hb
    obtain ⟨hcode, -, hhigh⟩ := hbyte c hc
    have h128 : (128 : UInt8).toNat = 128 := rfl
    rw [UInt8.lt_iff_toNat_lt, hcode, h128]
    omega

theorem isFrame_encodeInputFrame (g : Gesture) : ∃ frame, encodeInputFrame g = some frame ∧
    IsFrame frame := by
  obtain ⟨body, -, hencode, hbody, hlen, hascii⟩ := encodeInputFrame_body g
  refine ⟨_, hencode, body, rfl, hbody, hlen, ?_⟩
  intro b hb
  rcases List.mem_append.mp hb with hb | hb
  · exact hascii b hb
  · obtain rfl := List.mem_singleton.mp hb
    decide

theorem touchOf_inputFields (g : Gesture) :
    ∃ payload, Json.ofFlat g.inputFields = .obj payload ∧ touchOf payload = some (sinkCall g) := by
  cases g with
  | tap => exact ⟨_, rfl, by rfl⟩
  | doubleTap => exact ⟨_, rfl, by rfl⟩
  | hold d =>
    let payload : List (Str × Json) := [(str "v", .int 1), (str "kind", .str (str "input")),
      (str "source", .str (str "touch")), (str "gesture", .str (str "hold")),
      (str "duration_ms", .int d.toNat)]
    have hv : (Json.get payload "v").equalsInt 1 = true := rfl
    have hkind : (Json.get payload "kind").equalsStr (str "input") = true := rfl
    have hsource : (Json.get payload "source").equalsStr (str touchSource) = true := rfl
    have hgesture : Json.get payload "gesture" = .str (str "hold") := rfl
    have hduration : Json.get payload "duration_ms" = .int d.toNat := rfl
    have hmem : ¬ str "hold" ∉ touchGestures := by decide
    have hpos : ¬ (d.toNat : ℤ) < 0 := by omega
    refine ⟨payload, rfl, ?_⟩
    simp only [touchOf, hv, hkind, hsource, hgesture, hduration, hmem, hpos, Bool.not_true,
      Bool.or_false, Bool.false_eq_true, if_true, if_false]
    rfl

theorem parseInputFrame_body (hloads : ParsesFrames loads) (g : Gesture) :
    parseInputFrame loads (encodeAscii (FlatJson.print g.inputFields)) = some (sinkCall g) := by
  have hplain : ∀ c ∈ FlatJson.print g.inputFields, 33 ≤ c ∧ c ≤ 126 := by
    intro c
    exact inputFields_plain
  have hascii : isAscii (FlatJson.print g.inputFields) = true := by
    simp only [isAscii, List.all_eq_true, decide_eq_true_eq]
    intro c hc
    have := hplain c hc
    omega
  have hspace : ∀ c ∈ FlatJson.print g.inputFields, isSpace c = false := by
    intro c hc
    have := hplain c hc
    simp [isSpace]
    omega
  have hstrip : strip (FlatJson.print g.inputFields) = FlatJson.print g.inputFields :=
    (Trim.trimmed_of_forall hspace).trim_eq
  obtain ⟨payload, hpayload, htouch⟩ := touchOf_inputFields g
  have hne : FlatJson.print g.inputFields ≠ [] := by simp [FlatJson.print]
  simp only [parseInputFrame, decodeAscii_encodeAscii hascii, hstrip, if_neg hne, hloads g,
    hpayload, htouch]

/-- The lines of an honest stream are short and parse to its gestures. -/
theorem uplink_lines (hloads : ParsesFrames loads) (h : Emitted gs stream) :
    (splitLines newline stream).2 = [] ∧
      (∀ l ∈ (splitLines newline stream).1, l.length ≤ maxUplinkLineBytes) ∧
      (splitLines newline stream).1.filterMap (parseInputFrame loads) = gs.map sinkCall := by
  induction h with
  | done => exact ⟨rfl, by simp [splitLines], rfl⟩
  | @keepalive gs s _ ih =>
    have hsplit : splitLines newline (newline :: s) =
        ([] :: (splitLines newline s).1, (splitLines newline s).2) :=
      splitLines_line List.not_mem_nil
    obtain ⟨hrest, hshort, hcalls⟩ := ih
    have hnone : parseInputFrame loads [] = none := rfl
    rw [hsplit]
    exact ⟨hrest, by simpa using hshort, by simpa [hnone] using hcalls⟩
  | @frame g gs frame s hencode _ ih =>
    obtain ⟨body, hbody, hframe, hfree, hlen, -⟩ := encodeInputFrame_body g
    obtain rfl : frame = body ++ [newline] := Option.some.inj (hencode.symm.trans hframe)
    have hsplit : splitLines newline (body ++ [newline] ++ s) =
        (body :: (splitLines newline s).1, (splitLines newline s).2) := by
      rw [List.append_assoc]
      exact splitLines_line hfree
    obtain ⟨hrest, hshort, hcalls⟩ := ih
    have hcall : parseInputFrame loads body = some (sinkCall g) := by
      rw [hbody]
      exact parseInputFrame_body hloads g
    rw [hsplit]
    refine ⟨hrest, ?_, ?_⟩
    · simp only [List.forall_mem_cons]
      refine ⟨?_, hshort⟩
      rw [List.length_append, List.length_singleton, inputFrameCapacity] at hlen
      rw [maxUplinkLineBytes]
      omega
    · rw [List.filterMap_cons_some hcall, hcalls, List.map_cons]

theorem submittable_sinkCall (g : Gesture) :
    Submittable (sinkCall g).1 (sinkCall g).2 := by
  have hname : str g.name ∈ touchGestures := by
    cases g <;> simp only [Gesture.name] <;> decide
  refine ⟨hname, ?_⟩
  intro d hd
  cases g with
  | tap => contradiction
  | doubleTap => contradiction
  | hold ms =>
    obtain rfl : (ms.toNat : ℤ) = d := Option.some.inj hd
    refine ⟨by omega, ?_⟩
    have hlt : ms.toNat < 2 ^ 32 := ms.toNat_lt
    have hbig : 2 ^ 32 ≤ 2 ^ 1024 - 2 ^ 970 := by decide +kernel
    simp only [fitsFloat, Int.natAbs_natCast, decide_eq_true_eq]
    exact lt_of_lt_of_le hlt hbig

/-- Every gesture is encoded as one frame, and however the frames are segmented the sink gets
the gestures in order, the queue accepts each, and no byte stays behind. -/
theorem uplink_end_to_end (loads : Str → Option Json) (hloads : ParsesFrames loads)
    (gs : List Gesture) :
    (∀ g ∈ gs, ∃ frame, encodeInputFrame g = some frame ∧ IsFrame frame) ∧
      ∀ stream, Emitted gs stream → ∀ reads, Segments recvBytes stream reads →
        touches loads reads = gs.map sinkCall ∧ bufferAfter loads reads = [] ∧
          ∀ call ∈ touches loads reads, ∀ q : HostInputQueue, ∃ item,
            q.submitTouch (.str call.1) (durationValue call.2) =
              .ok (item, { q with items := q.items ++ [item], nextId := q.nextId + 1 }) ∧
            item.gesture = some call.1 := by
  refine ⟨fun g _ => isFrame_encodeInputFrame g, ?_⟩
  intro stream hstream reads hreads
  obtain ⟨hrest, hshort, hcalls⟩ := uplink_lines hloads hstream
  obtain ⟨hleft, q, -, -, -, hbuffer⟩ := segments_left newline maxUplinkLineBytes hreads
  have htouches : touches loads reads = gs.map sinkCall := by
    rw [touches_eq, lefts_of_length_le hleft hshort, hcalls]
  refine ⟨htouches, ?_, ?_⟩
  · rw [bufferAfter_eq, hbuffer, hrest, List.drop_nil]
  · intro call hcall queue
    rw [htouches] at hcall
    obtain ⟨g, -, rfl⟩ := List.mem_map.mp hcall
    exact submitTouch_ok queue (submittable_sinkCall g)

/-- An object as the device emits it, read back. -/
def flatLoads (s : Str) : Option Json :=
  (FlatJson.parse s).bind fun r => if r.2 = [] then some (Json.ofFlat r.1) else none

theorem parsesFrames_flatLoads : ParsesFrames flatLoads := by
  intro g
  have hparse : FlatJson.parse (FlatJson.print g.inputFields ++ []) = some (g.inputFields, []) :=
    FlatJson.parse_print (inputFields_ok g)
  rw [List.append_nil] at hparse
  simp [flatLoads, hparse]

def frameOf (g : Gesture) : List UInt8 := (encodeInputFrame g).getD []

/-- A tap and a hold, cut inside both frames. -/
theorem uplink_end_to_end_tap_hold :
    touches flatLoads [(frameOf .tap).take 20,
        (frameOf .tap).drop 20 ++ newline :: (frameOf (.hold 960)).take 30,
        (frameOf (.hold 960)).drop 30] =
      [(str "tap", none), (str "hold", some 960)] := by
  have hstream : Emitted [.tap, .hold 960]
      (frameOf .tap ++ newline :: (frameOf (.hold 960) ++ [])) :=
    .frame (by decide) (.keepalive (.frame (by decide +kernel) .done))
  exact ((uplink_end_to_end flatLoads parsesFrames_flatLoads [.tap, .hold 960]).2 _ hstream _
    ⟨by decide +kernel, by decide +kernel, by decide +kernel⟩).1

/-- The touches of the lines that fit. -/
def shortTouches (loads : Str → Option Json) (stream : List UInt8) : List TouchCall :=
  ((splitLines newline stream).1.filter (·.length ≤ maxUplinkLineBytes)).filterMap
    (parseInputFrame loads)

/-- Every segmentation delivers the same touches, and of the lines that fit only. -/
def SegmentationFree (loads : Str → Option Json) (stream : List UInt8) : Prop :=
  (∀ reads reads', Segments recvBytes stream reads → Segments recvBytes stream reads' →
    touches loads reads = touches loads reads') ∧
  ∀ reads, Segments recvBytes stream reads → touches loads reads = shortTouches loads stream

/-- A line of `n` bytes can lose its first `q` to dropped buffers before its newline arrives:
each drop takes 257 to 512 bytes, and the reads that end the line hold at most 511. -/
def Resumes (n q : ℕ) : Prop :=
  (∃ k, k * (maxUplinkLineBytes + 1) ≤ q ∧ q ≤ k * (maxUplinkLineBytes + recvBytes)) ∧
    q ≤ n ∧ n < q + maxUplinkLineBytes + recvBytes

theorem resumes_iff {s : List UInt8} : Left maxUplinkLineBytes recvBytes line s ↔
    ∃ q, Resumes line.length q ∧ s = line.drop q := by
  constructor
  · rintro ⟨q, hq, hle, hlt, hs⟩
    exact ⟨q, ⟨dropped_iff.mp hq, hle, hlt⟩, hs⟩
  · rintro ⟨q, ⟨hq, hle, hlt⟩, hs⟩
    exact ⟨q, dropped_iff.mpr hq, hle, hlt, hs⟩

theorem segmentationFree_iff_lefts : SegmentationFree loads stream ↔
    ∀ ss, List.Forall₂ (Left maxUplinkLineBytes recvBytes) (splitLines newline stream).1 ss →
      ss.filterMap (parseInputFrame loads) = shortTouches loads stream := by
  constructor
  · rintro ⟨-, h⟩ ss hss
    obtain ⟨reads, hreads, rfl⟩ := (exists_segments_iff (show 0 < recvBytes by decide)).mpr hss
    rw [← touches_eq]
    exact h reads hreads
  · intro h
    have hshort : ∀ reads, Segments recvBytes stream reads →
        touches loads reads = shortTouches loads stream := by
      intro reads hreads
      rw [touches_eq]
      exact h _ (segments_left newline maxUplinkLineBytes hreads).1
    exact ⟨fun reads reads' h₁ h₂ => (hshort reads h₁).trans (hshort reads' h₂).symm, hshort⟩

/-- The framing is free of the segmentation exactly when no part that can be left of an overlong
line is a frame. -/
theorem segmentationFree_iff (loads : Str → Option Json) (stream : List UInt8) :
    SegmentationFree loads stream ↔
      ∀ l ∈ (splitLines newline stream).1, maxUplinkLineBytes < l.length →
        ∀ q, Resumes l.length q → parseInputFrame loads (l.drop q) = none := by
  rw [segmentationFree_iff_lefts]
  constructor
  · intro h l hl hlong q hq
    obtain ⟨before, after, hsplit⟩ := List.append_of_mem hl
    obtain ⟨ss, hss⟩ := exists_lefts (show 0 < recvBytes by decide) before
    obtain ⟨ts, hts⟩ := exists_lefts (show 0 < recvBytes by decide) after
    have hleft : Left maxUplinkLineBytes recvBytes l (l.drop q) := resumes_iff.mpr ⟨q, hq, rfl⟩
    have hall := h (ss ++ l.drop q :: ts) (hsplit ▸ List.rel_append hss (.cons hleft hts))
    -- The other lines deliver at least what they should, so this one delivers nothing.
    have hlen := congrArg List.length hall
    have hbefore := length_filterMap_lefts (f := parseInputFrame loads) hss
    have hafter := length_filterMap_lefts (f := parseInputFrame loads) hts
    cases hparse : parseInputFrame loads (l.drop q) with
    | none => rfl
    | some call =>
      rw [shortTouches, hsplit, List.filter_append,
        List.filter_cons_of_neg (by simpa using hlong)] at hlen
      simp only [List.filterMap_append, List.filterMap_cons_some hparse, List.length_append,
        List.length_cons] at hlen
      omega
  · intro h ss hss
    refine filterMap_lefts hss ?_
    intro l hl hlong s hs
    obtain ⟨q, hq, rfl⟩ := resumes_iff.mp hs
    exact h l hl hlong q hq

/-- An overlong line ending in the text of a tap, delivered or not as the reads fall. -/
theorem segmentation_free_fails :
    ¬ ∀ loads, ParsesFrames loads → ∀ stream, SegmentationFree loads stream := by
  intro h
  have hsame := (h flatLoads parsesFrames_flatLoads (List.replicate 257 120 ++ frameOf .tap)).1
    [List.replicate 256 120, [120], frameOf .tap] [List.replicate 256 120, 120 :: frameOf .tap]
    ⟨by decide +kernel, by decide +kernel, by decide +kernel⟩
    ⟨by decide +kernel, by decide +kernel, by decide +kernel⟩
  revert hsame
  decide +kernel

end Hologotchi.Uplink
