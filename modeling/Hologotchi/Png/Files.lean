import Hologotchi.Png.Chunks
import Hologotchi.Png.Rows

/-! Which files are read as a picture. -/
namespace Hologotchi.Png

open Library Library.Fallible

variable {z : Zlib} {path : String} {raw rest : List UInt8} {image : RgbaImage} {got : Collected}

theorem readRgbaPng_signature : readRgbaPng z path (signature ++ rest) =
    readChunks z path ⟨none, []⟩ rest >>= imageOf z path := by
  rw [readRgbaPng, if_neg (not_not_intro (List.prefix_append _ _)), List.drop_left]

/-- A file that holds a picture: its chunks before any IEND, and what comes after them. -/
structure Encoded (z : Zlib) (p : Picture) where
  chunks : List Chunk
  ending : List UInt8
  codes : List UInt8
  not_iend : ∀ chunk ∈ chunks, chunk.kind ≠ Chunk.iend
  ends : Ending z ending
  length_ihdr : ∀ chunk ∈ chunks, chunk.kind = Chunk.ihdr → chunk.data.length = 13
  fits : p.width < 2 ^ 32 ∧ p.height < 2 ^ 32
  header : ∃ compression filter, headerData chunks =
    some (bigEndian p.width ++ bigEndian p.height ++ [8, 6, compression, filter, 0])
  decompressed : z.decompress (imageData chunks) = some codes
  coded : p.Coded codes

def Encoded.bytes {p : Picture} (e : Encoded z p) : List UInt8 :=
  signature ++ e.chunks.flatMap (Chunk.bytes z) ++ e.ending

theorem imageOf_eq_ok_iff : imageOf z path got = .ok image ↔
    ∃ (p : Picture) (codes : List UInt8), p.toRgbaImage = image ∧
      got.header = some ⟨p.width, p.height, 8, 6, 0⟩ ∧ z.decompress got.idat = some codes ∧
      p.Coded codes := by
  constructor
  · intro h
    unfold imageOf valueError at h
    split at h
    · contradiction
    · rename_i width height bitDepth colorType interlace hheader
      obtain ⟨hformat, h⟩ := of_ite_error h
      obtain ⟨hdepth, hcolor, hinterlace⟩ :
          bitDepth = 8 ∧ colorType = 6 ∧ interlace = 0 := by omega
      split at h
      · contradiction
      · rename_i codes hcodes
        cases hread : readPixels path width height codes with
        | error e =>
          rw [hread] at h
          contradiction
        | ok found =>
          rw [hread] at h
          cases h
          obtain ⟨p, hp, hwidth, hheight, hcoded⟩ := Picture.exists_of_readPixels hread
          refine ⟨p, codes, hp, ?_, hcodes, hcoded⟩
          rw [hheader, hwidth, hheight, hdepth, hcolor, hinterlace]
  · rintro ⟨p, codes, rfl, hheader, hcodes, hcoded⟩
    have hread := Picture.readPixels_of_coded path hcoded
    simp only [imageOf, hheader, hcodes, hread]
    rfl

/-- What is read stands in the file. -/
theorem exists_encoded (h : readRgbaPng z path raw = .ok image) :
    ∃ (p : Picture) (e : Encoded z p), p.toRgbaImage = image ∧ raw = e.bytes := by
  have hsignature : signature <+: raw := by
    by_contra hnot
    rw [readRgbaPng, if_pos hnot] at h
    contradiction
  obtain ⟨rest, rfl⟩ := hsignature
  rw [readRgbaPng_signature] at h
  obtain ⟨got, hgot, h⟩ := bind_eq_ok.mp h
  obtain ⟨chunks, tail, hrest, htail, hkinds, hfold⟩ := exists_of_readChunks hgot
  obtain ⟨hlengths, hidat, hheader⟩ := collected_of_foldlM hfold
  obtain ⟨p, codes, hp, hfound, hcodes, hcoded⟩ := imageOf_eq_ok_iff.mp h
  rw [hfound, Option.map_some] at hheader
  obtain ⟨data, hdata, hunpack⟩ := Option.map_eq_some_iff.mp hheader.symm
  obtain ⟨bitDepth, colorType, compression, filter, interlace, hfits, hfields, rfl⟩ :=
    unpackHeader_eq_ok_iff.mp hunpack
  simp only [Header.mk.injEq, true_and] at hfields
  obtain ⟨hdepth, hcolor, hinterlace⟩ := hfields
  have hbytes : bitDepth = 8 ∧ colorType = 6 ∧ interlace = 0 :=
    ⟨UInt8.toNat_inj.mp hdepth.symm, UInt8.toNat_inj.mp hcolor.symm,
      UInt8.toNat_inj.mp hinterlace.symm⟩
  obtain ⟨rfl, rfl, rfl⟩ := hbytes
  refine ⟨p, ⟨chunks, tail, codes, hkinds, htail, hlengths, hfits, ⟨compression, filter, hdata⟩,
    hidat ▸ hcodes, hcoded⟩, hp, ?_⟩
  rw [hrest, Encoded.bytes, List.append_assoc]
  rfl

/-- A file that holds a picture is read. -/
theorem readRgbaPng_bytes {p : Picture} (path : String) (e : Encoded z p) :
    readRgbaPng z path e.bytes = .ok p.toRgbaImage := by
  obtain ⟨got, hfold⟩ := exists_foldlM_add e.length_ihdr ⟨none, []⟩
  obtain ⟨-, hidat, hheader⟩ := collected_of_foldlM hfold
  obtain ⟨compression, filter, hdata⟩ := e.header
  have hunpack : unpackHeader (bigEndian p.width ++ bigEndian p.height ++
      [8, 6, compression, filter, 0]) = .ok ⟨p.width, p.height, 8, 6, 0⟩ :=
    unpackHeader_eq_ok_iff.mpr ⟨8, 6, compression, filter, 0, e.fits, rfl, rfl⟩
  rw [hdata, Option.map_some, hunpack] at hheader
  obtain ⟨header, hgot, hok⟩ := Option.map_eq_some_iff.mp hheader
  cases hok
  have hchunks : readChunks z path ⟨none, []⟩
      ((records z path).writeAll e.chunks ++ e.ending) = .ok got := by
    rw [readChunks_append e.not_iend, hfold]
    exact readChunks_of_ending e.ends
  rw [Encoded.bytes, List.append_assoc, readRgbaPng_signature]
  refine bind_eq_ok.mpr ⟨got, hchunks, ?_⟩
  exact imageOf_eq_ok_iff.mpr ⟨p, e.codes, rfl, hgot, hidat ▸ e.decompressed, e.coded⟩

/-- A file is read exactly when it is an PNG signature, chunks with matching CRCs, the last IHDR
among them that of the picture, the IDAT data together its filtered rows, and then nothing or an
IEND chunk and anything. -/
theorem readRgbaPng_eq_ok_iff (z : Zlib) (path : String) (raw : List UInt8) (image : RgbaImage) :
    readRgbaPng z path raw = .ok image ↔
      ∃ (p : Picture) (e : Encoded z p), p.toRgbaImage = image ∧ raw = e.bytes := by
  constructor
  · exact exists_encoded
  · rintro ⟨p, e, rfl, rfl⟩
    exact readRgbaPng_bytes path e

end Hologotchi.Png
