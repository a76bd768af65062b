import Hologotchi.Png.Container
import Mathlib.Data.List.Basic

/-! What the chunk loop finds in a file, and in a file that is cut off. -/
namespace Hologotchi.Png

open Library Library.Fallible

variable {z : Zlib} {path : String} {raw rest data : List UInt8} {chunk : Chunk}
  {chunks : List Chunk} {got got' : Collected} {n : ℕ}

@[simp] theorem length_bigEndian (n : ℕ) : (bigEndian n).length = 4 := rfl

theorem unpackU32_bigEndian (h : n < 2 ^ 32) : unpackU32 (bigEndian n) = n := by
  simp only [unpackU32, bigEndian, List.foldl_cons, List.foldl_nil, UInt8.toNat_ofNat']
  omega

theorem bigEndian_unpackU32 (h : data.length = 4) : bigEndian (unpackU32 data) = data := by
  obtain ⟨a, b, c, d, rfl⟩ := List.length_eq_four.mp h
  have ha := a.toNat_lt
  have hb := b.toNat_lt
  have hc := c.toNat_lt
  have hd := d.toNat_lt
  simp only [unpackU32, bigEndian, List.foldl_cons, List.foldl_nil, List.cons.injEq, and_true,
    ← UInt8.toNat_inj, UInt8.toNat_ofNat']
  omega

theorem packU32_eq_ok_iff : packU32 n = .ok data ↔ n < 2 ^ 32 ∧ data = bigEndian n := by
  unfold packU32
  split
  · exact ⟨fun h => ⟨‹_›, (Except.ok.inj h).symm⟩, fun h => congrArg Except.ok h.2.symm⟩
  · exact iff_of_false (fun h => by contradiction) fun h => absurd h.1 ‹_›

namespace Chunk

def bytes (z : Zlib) (chunk : Chunk) : List UInt8 :=
  bigEndian chunk.data.length ++ chunk.kind ++ chunk.data ++
    bigEndian (z.crc32 (chunk.kind ++ chunk.data)).toNat

theorem length_bytes : (chunk.bytes z).length = 12 + chunk.data.length := by
  simp only [bytes, List.length_append, length_bigEndian, chunk.length_kind]
  omega

end Chunk

/-- Where the parts of a chunk are found. -/
theorem slices {size kind data crc rest : List UInt8} (hsize : size.length = 4)
    (hkind : kind.length = 4) (hcrc : crc.length = 4)
    (hraw : raw = size ++ kind ++ data ++ crc ++ rest) :
    raw.take 4 = size ∧ (raw.drop 4).take 4 = kind ∧ (raw.drop 8).take data.length = data ∧
      (raw.drop (8 + data.length)).take 4 = crc ∧ raw.drop (12 + data.length) = rest := by
  subst hraw
  have hafterKind : (size ++ kind ++ data ++ crc ++ rest).drop 8 = data ++ (crc ++ rest) := by
    rw [List.append_assoc, List.append_assoc]
    exact List.drop_left' (by rw [List.length_append, hsize, hkind])
  have hafterData : (size ++ kind ++ data ++ crc ++ rest).drop (8 + data.length) = crc ++ rest := by
    rw [← List.drop_drop, hafterKind, List.drop_left]
  refine ⟨?_, ?_, ?_, ?_, ?_⟩
  · simp only [List.append_assoc]
    exact List.take_left' hsize
  · simp only [List.append_assoc]
    rw [List.drop_left' hsize, List.take_left' hkind]
  · rw [hafterKind, List.take_left]
  · rw [hafterData, List.take_left' hcrc]
  · have hlength : 12 + data.length = 8 + data.length + 4 := by omega
    rw [hlength, ← List.drop_drop, hafterData, List.drop_left' hcrc]

theorem join_slices (raw : List UInt8) (length : ℕ) :
    raw.take 4 ++ (raw.drop 4).take 4 ++ (raw.drop 8).take length ++
      (raw.drop (8 + length)).take 4 ++ raw.drop (12 + length) = raw := by
  have hkind : raw.drop 8 = (raw.drop 4).drop 4 := by rw [List.drop_drop]
  have hdata : raw.drop (8 + length) = (raw.drop 8).drop length := by rw [List.drop_drop]
  have hrest : raw.drop (12 + length) = (raw.drop (8 + length)).drop 4 := by
    rw [List.drop_drop, Nat.add_right_comm]
  simp only [List.append_assoc]
  rw [hrest, List.take_append_drop, hdata, List.take_append_drop, hkind, List.take_append_drop,
    List.take_append_drop]

theorem nextChunk_eq_ok_iff :
    nextChunk z path raw = .ok (chunk, rest) ↔ raw = chunk.bytes z ++ rest := by
  constructor
  · intro h
    unfold nextChunk valueError at h
    split at h
    · contradiction
    · rename_i hshort
      dsimp only at h
      split at h
      · contradiction
      · rename_i hcut
        obtain ⟨hdata, hcrc⟩ := not_or.mp hcut
        split at h
        · split at h <;> contradiction
        · rename_i hsum
          cases h
          have hsize : (raw.take 4).length = 4 := List.length_take_of_le (by omega)
          rw [Chunk.bytes, not_not.mp hdata, bigEndian_unpackU32 hsize, not_not.mp hsum,
            bigEndian_unpackU32 (not_not.mp hcrc)]
          exact (join_slices raw _).symm
  · intro h
    obtain ⟨hsize, hkind, hdata, hcrc, hrest⟩ := slices rfl chunk.length_kind rfl h
    have hlong : ¬ raw.length < 12 := by
      rw [h, List.length_append, Chunk.length_bytes]
      omega
    have hcount := unpackU32_bigEndian chunk.length_data
    have hsum := unpackU32_bigEndian (z.crc32 (chunk.kind ++ chunk.data)).toNat_lt
    unfold nextChunk
    rw [dif_neg hlong]
    simp only [hsize, hkind, hcount, hdata, hcrc, hrest, hsum, length_bigEndian, ne_eq,
      not_true_eq_false, or_self, dite_false, if_false]

/-- The chunks of a file as records. -/
def records (z : Zlib) (path : String) : Records FileError Chunk UInt8 where
  write := Chunk.bytes z
  next := nextChunk z path
  next_eq_ok_iff := nextChunk_eq_ok_iff
  write_ne_nil chunk := by
    apply List.ne_nil_of_length_pos
    rw [Chunk.length_bytes]
    omega

/-- What may follow the chunks that are read: nothing, or an IEND chunk and anything. -/
inductive Ending (z : Zlib) : List UInt8 → Prop
  | nothing : Ending z []
  | iend (last : Chunk) (after : List UInt8) (hkind : last.kind = Chunk.iend) :
      Ending z (last.bytes z ++ after)

theorem readChunks_of_ending (h : Ending z raw) : readChunks z path got raw = .ok got := by
  cases h with
  | nothing => rw [readChunks, if_pos rfl]
  | iend last after hkind =>
    have hnext : nextChunk z path (last.bytes z ++ after) = .ok (last, after) :=
      (records z path).next_write last after
    have hne : last.bytes z ++ after ≠ [] :=
      List.append_ne_nil_of_left_ne_nil ((records z path).write_ne_nil last) after
    rw [readChunks, if_neg hne]
    split
    · rename_i hother
      rw [hnext] at hother
      contradiction
    · rename_i hother
      rw [hnext] at hother
      cases hother
      rw [if_pos hkind]

theorem readChunks_cons (hkind : chunk.kind ≠ Chunk.iend) :
    readChunks z path got (chunk.bytes z ++ rest) =
      (got.add chunk >>= fun got => readChunks z path got rest) := by
  have hnext : nextChunk z path (chunk.bytes z ++ rest) = .ok (chunk, rest) :=
    (records z path).next_write chunk rest
  have hne : chunk.bytes z ++ rest ≠ [] :=
    List.append_ne_nil_of_left_ne_nil ((records z path).write_ne_nil chunk) rest
  rw [readChunks, if_neg hne]
  split
  · rename_i hother
    rw [hnext] at hother
    contradiction
  · rename_i hother
    rw [hnext] at hother
    cases hother
    rw [if_neg hkind]
    cases got.add chunk <;> rfl

/-- Chunks one after the other are collected one after the other. -/
theorem readChunks_append (h : ∀ chunk ∈ chunks, chunk.kind ≠ Chunk.iend) :
    readChunks z path got ((records z path).writeAll chunks ++ rest) =
      (chunks.foldlM Collected.add got >>= fun got => readChunks z path got rest) := by
  induction chunks generalizing got with
  | nil => rfl
  | cons chunk chunks ih =>
    obtain ⟨hkind, hrest⟩ := List.forall_mem_cons.mp h
    rw [Records.writeAll_cons, List.append_assoc, List.foldlM_cons]
    change readChunks z path got (chunk.bytes z ++ _) = _
    rw [readChunks_cons hkind]
    cases got.add chunk with
    | error e => rfl
    | ok got => exact ih hrest

/-- What is read to its end is chunks, and an ending. -/
theorem exists_of_readChunks (h : readChunks z path got raw = .ok got') :
    ∃ chunks tail, raw = (records z path).writeAll chunks ++ tail ∧ Ending z tail ∧
      (∀ chunk ∈ chunks, chunk.kind ≠ Chunk.iend) ∧
      chunks.foldlM Collected.add got = .ok got' := by
  induction hlength : raw.length using Nat.strong_induction_on generalizing raw got with
  | h length ih =>
    rw [readChunks] at h
    split at h
    · rename_i hempty
      cases h
      exact ⟨[], [], by simp [hempty], .nothing, by simp, rfl⟩
    · split at h
      · contradiction
      · rename_i chunk rest hnext
        have hraw := nextChunk_eq_ok_iff.mp hnext
        split at h
        · rename_i hkind
          cases h
          exact ⟨[], raw, rfl, hraw ▸ .iend chunk rest hkind, by simp, rfl⟩
        · rename_i hkind
          split at h
          · contradiction
          · rename_i got₁ hadd
            obtain ⟨chunks, tail, hrest, htail, hkinds, hfold⟩ :=
              ih rest.length (hlength ▸ length_lt_of_nextChunk hnext) h rfl
            refine ⟨chunk :: chunks, tail, ?_, htail, List.forall_mem_cons.mpr ⟨hkind, hkinds⟩, ?_⟩
            · rw [hraw, hrest, Records.writeAll_cons, List.append_assoc]
              rfl
            · rw [List.foldlM_cons, hadd]
              exact hfold

/-- The data of the last IHDR chunk. -/
def headerData (chunks : List Chunk) : Option (List UInt8) :=
  ((chunks.filter fun chunk => chunk.kind = Chunk.ihdr).map (·.data)).getLast?

/-- The data of the IDAT chunks, joined. -/
def imageData (chunks : List Chunk) : List UInt8 :=
  (chunks.filter fun chunk => chunk.kind = Chunk.idat).flatMap (·.data)

theorem unpackHeader_eq_ok_iff {header : Header} : unpackHeader data = .ok header ↔
    ∃ bitDepth colorType compression filter interlace : UInt8,
      (header.width < 2 ^ 32 ∧ header.height < 2 ^ 32) ∧
      header = ⟨header.width, header.height, bitDepth.toNat, colorType.toNat, interlace.toNat⟩ ∧
      data = bigEndian header.width ++ bigEndian header.height ++
        [bitDepth, colorType, compression, filter, interlace] := by
  constructor
  · intro h
    unfold unpackHeader at h
    split at h
    · rename_i w₀ w₁ w₂ w₃ h₀ h₁ h₂ h₃ bitDepth colorType compression filter interlace
      cases h
      have hwidth : bigEndian (unpackU32 [w₀, w₁, w₂, w₃]) = _ := bigEndian_unpackU32 rfl
      have hheight : bigEndian (unpackU32 [h₀, h₁, h₂, h₃]) = _ := bigEndian_unpackU32 rfl
      refine ⟨bitDepth, colorType, compression, filter, interlace,
        ⟨unpackU32_lt (Nat.le_refl 4), unpackU32_lt (Nat.le_refl 4)⟩, rfl, ?_⟩
      rw [hwidth, hheight]
      rfl
    · contradiction
  · rintro ⟨bitDepth, colorType, compression, filter, interlace, ⟨hwidth, hheight⟩, hheader, rfl⟩
    have hpacked : unpackHeader (bigEndian header.width ++ bigEndian header.height ++
        [bitDepth, colorType, compression, filter, interlace]) =
        .ok ⟨unpackU32 (bigEndian header.width), unpackU32 (bigEndian header.height),
          bitDepth.toNat, colorType.toNat, interlace.toNat⟩ := rfl
    rw [hpacked, unpackU32_bigEndian hwidth, unpackU32_bigEndian hheight]
    exact congrArg Except.ok hheader.symm

theorem exists_unpackHeader (h : data.length = 13) : ∃ header, unpackHeader data = .ok header := by
  obtain ⟨w₀, w₁, w₂, w₃, h₀, h₁, h₂, h₃, bitDepth, colorType, compression, filter, interlace,
      rfl⟩ : ∃ w₀ w₁ w₂ w₃ h₀ h₁ h₂ h₃ bitDepth colorType compression filter interlace : UInt8,
      data = [w₀, w₁, w₂, w₃, h₀, h₁, h₂, h₃, bitDepth, colorType, compression, filter,
        interlace] := by
    match data, h with
    | [_, _, _, _, _, _, _, _, _, _, _, _, _], _ =>
      exact ⟨_, _, _, _, _, _, _, _, _, _, _, _, _, rfl⟩
  exact ⟨_, rfl⟩

theorem length_of_unpackHeader {header : Header} (h : unpackHeader data = .ok header) :
    data.length = 13 := by
  obtain ⟨bitDepth, colorType, compression, filter, interlace, -, -, rfl⟩ :=
    unpackHeader_eq_ok_iff.mp h
  rfl

theorem ihdr_ne_idat : Chunk.ihdr ≠ Chunk.idat := by decide

theorem add_ihdr (h : chunk.kind = Chunk.ihdr) : got.add chunk =
    (do .ok { got with header := some (← unpackHeader chunk.data) }) := by
  rw [Collected.add, if_pos h]

theorem add_idat (h : chunk.kind = Chunk.idat) :
    got.add chunk = .ok { got with idat := got.idat ++ chunk.data } := by
  rw [Collected.add, if_neg (by rw [h]; exact ihdr_ne_idat.symm), if_pos h]

theorem add_other (hheader : chunk.kind ≠ Chunk.ihdr) (hidat : chunk.kind ≠ Chunk.idat) :
    got.add chunk = .ok got := by
  rw [Collected.add, if_neg hheader, if_neg hidat]

theorem exists_foldlM_add
    (h : ∀ chunk ∈ chunks, chunk.kind = Chunk.ihdr → chunk.data.length = 13) (got : Collected) :
    ∃ got', chunks.foldlM Collected.add got = .ok got' := by
  induction chunks generalizing got with
  | nil => exact ⟨got, rfl⟩
  | cons chunk chunks ih =>
    obtain ⟨hchunk, hrest⟩ := List.forall_mem_cons.mp h
    obtain ⟨got₁, hadd⟩ : ∃ got₁, got.add chunk = .ok got₁ := by
      by_cases hheader : chunk.kind = Chunk.ihdr
      · obtain ⟨header, hunpack⟩ := exists_unpackHeader (hchunk hheader)
        exact ⟨_, (add_ihdr hheader).trans (by rw [hunpack]; rfl)⟩
      · by_cases hidat : chunk.kind = Chunk.idat
        · exact ⟨_, add_idat hidat⟩
        · exact ⟨_, add_other hheader hidat⟩
    rw [List.foldlM_cons, hadd]
    exact ih hrest got₁

/-- The header that is collected is the last one, and the image data is joined in order. -/
theorem collected_of_foldlM (h : chunks.foldlM Collected.add ⟨none, []⟩ = .ok got) :
    (∀ chunk ∈ chunks, chunk.kind = Chunk.ihdr → chunk.data.length = 13) ∧
    got.idat = imageData chunks ∧
    got.header.map .ok = (headerData chunks).map unpackHeader := by
  induction chunks using List.reverseRecOn generalizing got with
  | nil =>
    cases h
    exact ⟨by simp, rfl, rfl⟩
  | append_singleton chunks chunk ih =>
    rw [List.foldlM_append] at h
    obtain ⟨got₁, hfold, h⟩ := bind_eq_ok.mp h
    rw [List.foldlM_cons] at h
    obtain ⟨got₂, hadd, h⟩ := bind_eq_ok.mp h
    cases h
    obtain ⟨hlengths, himage, hheader⟩ := ih hfold
    simp only [imageData, headerData] at himage hheader
    by_cases hihdr : chunk.kind = Chunk.ihdr
    · have hidat : chunk.kind ≠ Chunk.idat := by rw [hihdr]; exact ihdr_ne_idat
      rw [add_ihdr hihdr] at hadd
      obtain ⟨header, hunpack, hadd⟩ := bind_eq_ok.mp hadd
      cases hadd
      refine ⟨?_, ?_, ?_⟩
      · intro c hc hkind
        rcases List.mem_append.mp hc with hc | hc
        · exact hlengths c hc hkind
        · rw [List.mem_singleton.mp hc]
          exact length_of_unpackHeader hunpack
      · simp [imageData, hidat, himage]
      · simp [headerData, hihdr, hunpack]
    · refine ⟨?_, ?_⟩
      · intro c hc hkind
        rcases List.mem_append.mp hc with hc | hc
        · exact hlengths c hc hkind
        · exact absurd (List.mem_singleton.mp hc ▸ hkind) hihdr
      · by_cases hidat : chunk.kind = Chunk.idat
        · rw [add_idat hidat] at hadd
          cases hadd
          exact ⟨by simp [imageData, hidat, himage], by simp [headerData, hihdr, hheader]⟩
        · rw [add_other hihdr hidat] at hadd
          cases hadd
          exact ⟨by simp [imageData, hidat, himage], by simp [headerData, hihdr, hheader]⟩

end Hologotchi.Png
