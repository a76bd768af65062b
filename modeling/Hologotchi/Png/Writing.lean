import Hologotchi.Png.Files

/-! What is read of a file that was written, whole or in part. -/
namespace Hologotchi.Png

open Library Library.Fallible

variable {z : Zlib} {path : String} {p : Picture} {raw rest data : List UInt8} {image : RgbaImage}
  {chunks : List Chunk}

/-- What `zlib` promises of its streams: compressing loses nothing, and no stream is empty. -/
structure Zlib.Lossless (z : Zlib) : Prop where
  decompress_compress : ∀ data, z.decompress (z.compress data) = some data
  decompress_nil : z.decompress [] = none

theorem none_filter (prior raw : List UInt8) : FilterType.none.filter prior raw = raw := by
  have hid : (fun (x : ℕ) (byte : UInt8) => byte - FilterType.none.expected prior raw x) =
      fun _ byte => byte := by
    funext x byte
    exact UInt8.sub_zero byte
  rw [FilterType.filter, hid, List.mapIdx_eq_zipIdx_map]
  exact List.zipIdx_map_fst 0 raw

/-- The rows are written without a filter. -/
theorem rowsOf_eq_filtered (p : Picture) :
    rowsOf p.toRgbaImage = p.filtered fun _ => .none := by
  rw [rowsOf, Picture.filtered]
  refine congrArg List.flatten (List.map_congr_left fun y _ => ?_)
  rw [Picture.filteredRow, none_filter]
  rfl

theorem coded_rowsOf (p : Picture) : p.Coded (rowsOf p.toRgbaImage) := by
  rw [Picture.Coded, rowsOf_eq_filtered]
  split
  · rename_i hwidth
    rw [Picture.length_filtered, Picture.stride, hwidth]
    omega
  · exact ⟨_, rfl⟩

theorem pngChunk_eq_ok_iff {kind payload data : List UInt8} (hkind : kind.length = 4) :
    pngChunk z kind payload = .ok data ↔
      ∃ hfits : payload.length < 2 ^ 32, data = (Chunk.mk kind payload hkind hfits).bytes z := by
  rw [pngChunk, bind_eq_ok]
  constructor
  · rintro ⟨size, hsize, h⟩
    obtain ⟨hfits, rfl⟩ := packU32_eq_ok_iff.mp hsize
    cases h
    exact ⟨hfits, rfl⟩
  · rintro ⟨hfits, rfl⟩
    exact ⟨_, packU32_eq_ok_iff.mpr ⟨hfits, rfl⟩, rfl⟩

def headerChunk (p : Picture) : Chunk where
  kind := Chunk.ihdr
  data := bigEndian p.width ++ bigEndian p.height ++ [8, 6, 0, 0, 0]
  length_kind := rfl
  length_data := by simp

def dataChunk (z : Zlib) (p : Picture) (h : (z.compress (rowsOf p.toRgbaImage)).length < 2 ^ 32) :
    Chunk where
  kind := Chunk.idat
  data := z.compress (rowsOf p.toRgbaImage)
  length_kind := rfl
  length_data := h

def lastChunk : Chunk where
  kind := Chunk.iend
  data := []
  length_kind := rfl
  length_data := by simp

/-- The chunks that are written before the last one. -/
def written (z : Zlib) (p : Picture) (h : (z.compress (rowsOf p.toRgbaImage)).length < 2 ^ 32) :
    List Chunk :=
  [headerChunk p, dataChunk z p h]

theorem exists_of_writeRgbaPng (h : writeRgbaPng z image = .ok raw) :
    ∃ (p : Picture) (hdata : (z.compress (rowsOf p.toRgbaImage)).length < 2 ^ 32),
      p.toRgbaImage = image ∧ (p.width < 2 ^ 32 ∧ p.height < 2 ^ 32) ∧
      raw = signature ++ (written z p hdata ++ [lastChunk]).flatMap (Chunk.bytes z) := by
  rw [writeRgbaPng] at h
  obtain ⟨hlength, h⟩ := of_ite_error h
  obtain ⟨width, hwidth, h⟩ := bind_eq_ok.mp h
  obtain ⟨height, hheight, h⟩ := bind_eq_ok.mp h
  obtain ⟨header, hheader, h⟩ := bind_eq_ok.mp h
  obtain ⟨data, hdata, h⟩ := bind_eq_ok.mp h
  obtain ⟨last, hlast, h⟩ := bind_eq_ok.mp h
  cases h
  obtain ⟨hwidthFits, rfl⟩ := packU32_eq_ok_iff.mp hwidth
  obtain ⟨hheightFits, rfl⟩ := packU32_eq_ok_iff.mp hheight
  obtain ⟨-, rfl⟩ := (pngChunk_eq_ok_iff rfl).mp hheader
  obtain ⟨hfits, rfl⟩ := (pngChunk_eq_ok_iff rfl).mp hdata
  obtain ⟨-, rfl⟩ := (pngChunk_eq_ok_iff rfl).mp hlast
  refine ⟨⟨image, not_not.mp hlength⟩, hfits, rfl, ⟨hwidthFits, hheightFits⟩, ?_⟩
  simp only [written, headerChunk, dataChunk, lastChunk, List.cons_append, List.nil_append,
    List.flatMap_cons, List.flatMap_nil, List.append_nil, List.append_assoc]

/-- What fits its fields is written. -/
theorem exists_writeRgbaPng (hfits : p.width < 2 ^ 32 ∧ p.height < 2 ^ 32)
    (hdata : (z.compress (rowsOf p.toRgbaImage)).length < 2 ^ 32) :
    ∃ raw, writeRgbaPng z p.toRgbaImage = .ok raw := by
  have hlength : ¬ p.pixels.length ≠ p.height * (p.width * 4) := not_not_intro p.length_pixels
  have hwidth := packU32_eq_ok_iff.mpr ⟨hfits.1, rfl⟩
  have hheight := packU32_eq_ok_iff.mpr ⟨hfits.2, rfl⟩
  have hheader : pngChunk z Chunk.ihdr
      (bigEndian p.width ++ bigEndian p.height ++ [8, 6, 0, 0, 0]) = .ok _ :=
    (pngChunk_eq_ok_iff rfl).mpr ⟨by simp, rfl⟩
  have hidat : pngChunk z Chunk.idat (z.compress (rowsOf p.toRgbaImage)) = .ok _ :=
    (pngChunk_eq_ok_iff rfl).mpr ⟨hdata, rfl⟩
  have hlast : pngChunk z Chunk.iend [] = .ok _ := (pngChunk_eq_ok_iff rfl).mpr ⟨by simp, rfl⟩
  rw [writeRgbaPng, if_neg hlength]
  exact ⟨_, bind_eq_ok.mpr ⟨_, hwidth, bind_eq_ok.mpr ⟨_, hheight, bind_eq_ok.mpr ⟨_, hheader,
    bind_eq_ok.mpr ⟨_, hidat, bind_eq_ok.mpr ⟨_, hlast, rfl⟩⟩⟩⟩⟩⟩

section Written

variable {hdata : (z.compress (rowsOf p.toRgbaImage)).length < 2 ^ 32}

theorem not_iend_of_written : ∀ chunk ∈ written z p hdata, chunk.kind ≠ Chunk.iend := by
  have hheader : Chunk.ihdr ≠ Chunk.iend := by decide
  have hdata : Chunk.idat ≠ Chunk.iend := by decide
  simp only [written, List.forall_mem_cons]
  exact ⟨hheader, hdata, by simp⟩

theorem imageData_written : imageData (written z p hdata) = z.compress (rowsOf p.toRgbaImage) := by
  have hheader : (headerChunk p).kind ≠ Chunk.idat := ihdr_ne_idat
  have hself : (dataChunk z p hdata).kind = Chunk.idat := rfl
  simp only [imageData, written, List.filter_cons, hheader, hself, decide_true, decide_false,
    if_true, List.filter_nil, List.flatMap_cons, List.flatMap_nil, List.append_nil,
    Bool.false_eq_true, if_false]
  rfl

theorem headerData_written : headerData (written z p hdata) =
    some (bigEndian p.width ++ bigEndian p.height ++ [8, 6, 0, 0, 0]) := by
  have hself : (headerChunk p).kind = Chunk.ihdr := rfl
  have hother : (dataChunk z p hdata).kind ≠ Chunk.ihdr := ihdr_ne_idat.symm
  simp only [headerData, written, List.filter_cons, hself, hother, decide_true, decide_false,
    if_true, List.filter_nil, Bool.false_eq_true, if_false]
  rfl

/-- What is written is read, with any ending. -/
def encodedWritten (hz : z.Lossless) (hfits : p.width < 2 ^ 32 ∧ p.height < 2 ^ 32)
    (hdata : (z.compress (rowsOf p.toRgbaImage)).length < 2 ^ 32) {ending : List UInt8}
    (hends : Ending z ending) : Encoded z p where
  chunks := written z p hdata
  ending := ending
  codes := rowsOf p.toRgbaImage
  not_iend := not_iend_of_written
  ends := hends
  length_ihdr := by
    simp only [written, List.forall_mem_cons]
    exact ⟨fun _ => rfl, fun h => absurd h ihdr_ne_idat.symm, by simp⟩
  fits := hfits
  header := ⟨0, 0, headerData_written⟩
  decompressed := by rw [imageData_written, hz.decompress_compress]
  coded := coded_rowsOf p

/-- Inside of a chunk nothing is read. -/
theorem readRgbaPng_inside {chunk : Chunk} {cut : List UInt8}
    (hkinds : ∀ chunk ∈ chunks, chunk.kind ≠ Chunk.iend) (hcut : cut <+: chunk.bytes z)
    (hempty : cut ≠ []) (hwhole : cut ≠ chunk.bytes z) :
    ∃ e, readRgbaPng z path (signature ++ ((records z path).writeAll chunks ++ cut)) =
      .error e := by
  have hchunks : ∃ e, readChunks z path ⟨none, []⟩ ((records z path).writeAll chunks ++ cut) =
      .error e := by
    rw [readChunks_append hkinds]
    cases chunks.foldlM Collected.add ⟨none, []⟩ with
    | error e => exact ⟨e, rfl⟩
    | ok got =>
      obtain ⟨e, hnext⟩ := (records z path).next_of_cut hcut hwhole
      refine ⟨e, ?_⟩
      change readChunks z path got cut = _
      rw [readChunks, if_neg hempty]
      split
      · rename_i hother
        exact congrArg Except.error (Except.error.inj (hother.symm.trans hnext))
      · rename_i hother
        have hok := hother.symm.trans hnext
        contradiction
  obtain ⟨e, hchunks⟩ := hchunks
  exact ⟨e, by rw [readRgbaPng_signature, hchunks]; rfl⟩

/-- What is left of a file that was cut off between two chunks. -/
theorem exists_cut (path : String)
    (hdata : (z.compress (rowsOf p.toRgbaImage)).length < 2 ^ 32) {cut : List UInt8}
    (hcut : cut <+: signature ++ (records z path).writeAll (written z p hdata ++ [lastChunk])) :
    (∃ e, readRgbaPng z path cut = .error e) ∨
      ∃ bs, bs <+: written z p hdata ++ [lastChunk] ∧
        cut = signature ++ (records z path).writeAll bs := by
  by_cases hsignature : signature <+: cut
  · obtain ⟨rest, rfl⟩ := hsignature
    rw [List.prefix_append_right_inj] at hcut
    obtain ⟨bs, left, htake, hbs, hat⟩ :=
      Records.exists_cutAt (r := records z path) (written z p hdata ++ [lastChunk]) rest.length
    rw [← List.prefix_iff_eq_take.mp hcut] at htake
    rw [htake]
    cases hat with
    | between => exact .inr ⟨bs, hbs, by rw [List.append_nil]⟩
    | inside hnext hinside hempty hwhole =>
      refine .inl (readRgbaPng_inside ?_ hinside hempty hwhole)
      have hbefore : bs <+: written z p hdata := by
        have hlength := hnext.length_le
        rw [List.length_append, List.length_append] at hlength
        exact List.prefix_of_prefix_length_le hbs (List.prefix_append _ _)
          (Nat.le_of_add_le_add_right hlength)
      intro chunk hchunk
      exact not_iend_of_written chunk (hbefore.subset hchunk)
  · exact .inl ⟨_, by rw [readRgbaPng, if_pos hsignature]; rfl⟩

/-- A file that ends before its image data is not read. -/
theorem readRgbaPng_unfinished (path : String) (p : Picture) (hz : z.Lossless) {bs : List Chunk}
    (hbs : bs = [] ∨ bs = [headerChunk p]) :
    ∃ e, readRgbaPng z path (signature ++ (records z path).writeAll bs) = .error e := by
  cases hread : readRgbaPng z path (signature ++ (records z path).writeAll bs) with
  | error e => exact ⟨e, rfl⟩
  | ok image =>
    exfalso
    have hkinds : ∀ chunk ∈ bs, chunk.kind ≠ Chunk.iend := by
      rcases hbs with rfl | rfl
      · simp
      · have hheader : Chunk.ihdr ≠ Chunk.iend := by decide
        exact List.forall_mem_singleton.mpr hheader
    rw [readRgbaPng_signature, ← List.append_nil ((records z path).writeAll bs),
      readChunks_append hkinds] at hread
    obtain ⟨got, hgot, himage⟩ := bind_eq_ok.mp hread
    obtain ⟨first, hfold, hend⟩ := bind_eq_ok.mp hgot
    rw [readChunks_of_ending .nothing] at hend
    cases hend
    obtain ⟨-, hidat, -⟩ := collected_of_foldlM hfold
    obtain ⟨q, codes, -, -, hcodes, -⟩ := imageOf_eq_ok_iff.mp himage
    have hnone : imageData bs = [] := by
      rcases hbs with rfl | rfl <;> rfl
    rw [hidat, hnone, hz.decompress_nil] at hcodes
    contradiction

end Written

theorem writeAll_written (path : String)
    (hdata : (z.compress (rowsOf p.toRgbaImage)).length < 2 ^ 32) :
    (written z p hdata ++ [lastChunk]).flatMap (Chunk.bytes z) =
      (records z path).writeAll (written z p hdata) ++ lastChunk.bytes z := by
  rw [List.flatMap_append]
  simp [Records.writeAll, records]

theorem readRgbaPng_written (hz : z.Lossless) (path : String) (h : writeRgbaPng z image = .ok raw)
    (after : List UInt8) : readRgbaPng z path (raw ++ after) = .ok image := by
  obtain ⟨p, hdata, rfl, hfits, rfl⟩ := exists_of_writeRgbaPng h
  have hread := readRgbaPng_bytes path (encodedWritten hz hfits hdata (.iend lastChunk after rfl))
  simp only [Encoded.bytes, encodedWritten, List.append_assoc] at hread
  rw [writeAll_written path, List.append_assoc, List.append_assoc]
  exact hread

/-- The last chunk is not missed. -/
theorem readRgbaPng_most (hz : z.Lossless) (path : String)
    (hfits : p.width < 2 ^ 32 ∧ p.height < 2 ^ 32)
    (hdata : (z.compress (rowsOf p.toRgbaImage)).length < 2 ^ 32) :
    readRgbaPng z path (signature ++ (records z path).writeAll (written z p hdata)) =
      .ok p.toRgbaImage := by
  have hread := readRgbaPng_bytes path (encodedWritten hz hfits hdata .nothing)
  simp only [Encoded.bytes, encodedWritten, List.append_nil] at hread
  exact hread

theorem readRgbaPng_cut_iff (hz : z.Lossless) (path : String) (h : writeRgbaPng z image = .ok raw)
    {cut : List UInt8} (hcut : cut <+: raw) {found : RgbaImage} :
    readRgbaPng z path cut = .ok found ↔
      found = image ∧ (cut = raw ∨ cut ++ lastChunk.bytes z = raw) := by
  have hwhole := readRgbaPng_written hz path h []
  rw [List.append_nil] at hwhole
  obtain ⟨p, hdata, rfl, hfits, hraw⟩ := exists_of_writeRgbaPng h
  have hmost := readRgbaPng_most hz path hfits hdata
  have hjoined := hraw
  rw [writeAll_written path, ← List.append_assoc] at hjoined
  constructor
  · intro hread
    rcases exists_cut path hdata (hraw ▸ hcut) with ⟨e, herror⟩ | ⟨bs, hbs, rfl⟩
    · rw [herror] at hread
      contradiction
    · simp only [written, List.cons_append, List.nil_append, List.prefix_cons_iff,
        List.prefix_nil] at hbs
      rcases hbs with rfl | ⟨_, rfl, rfl | ⟨_, rfl, rfl | ⟨_, rfl, rfl⟩⟩⟩
      · obtain ⟨e, herror⟩ := readRgbaPng_unfinished path p hz (.inl rfl)
        rw [herror] at hread
        contradiction
      · obtain ⟨e, herror⟩ := readRgbaPng_unfinished path p hz (.inr rfl)
        rw [herror] at hread
        contradiction
      · exact ⟨Except.ok.inj (hread.symm.trans hmost), .inr hjoined.symm⟩
      · have hcutWhole : signature ++ (records z path).writeAll
            [headerChunk p, dataChunk z p hdata, lastChunk] = raw := hraw.symm
        rw [hcutWhole, hwhole] at hread
        exact ⟨(Except.ok.inj hread).symm, .inl hcutWhole⟩
  · rintro ⟨rfl, rfl | hlast⟩
    · exact hwhole
    · rw [hjoined, List.append_cancel_right_eq] at hlast
      rw [hlast]
      exact hmost

/-- A file that was written is read as the image, whatever follows it. Of a file that was cut off
anywhere the same image is read if all but the last chunk or the whole of it is left, and none
otherwise. -/
theorem written_file_cut_off (z : Zlib) (hz : z.Lossless) (path : String) (image : RgbaImage)
    (raw : List UInt8) (h : writeRgbaPng z image = .ok raw) :
    (∀ after, readRgbaPng z path (raw ++ after) = .ok image) ∧
    ∀ cut, cut <+: raw → ∀ found, readRgbaPng z path cut = .ok found ↔
      found = image ∧ (cut = raw ∨ cut ++ lastChunk.bytes z = raw) :=
  ⟨readRgbaPng_written hz path h, fun _ hcut _ => readRgbaPng_cut_iff hz path h hcut⟩

/-- CRC-32, bit by bit. -/
def crc32 (data : List UInt8) : UInt32 :=
  let shift (c : UInt32) : UInt32 := if c &&& 1 = 1 then (c >>> 1) ^^^ 0xedb88320 else c >>> 1
  let byte (c : UInt32) (b : UInt8) : UInt32 :=
    (List.range 8).foldl (fun c _ => shift c) (c ^^^ b.toUInt32)
  data.foldl byte 0xffffffff ^^^ 0xffffffff

example : crc32 Chunk.iend = 0xae426082 := by decide +kernel

/-- `zlib` where it makes the given stream of the given data, and something lossless elsewhere. -/
def zlibOn (data stream : List UInt8) : Zlib where
  crc32 := crc32
  compress other := if other = data then stream else 0 :: other
  decompress
    | 0 :: other => some other
    | other => if other = stream then some data else none

theorem lossless_zlibOn (data rest : List UInt8) : (zlibOn data (0x78 :: rest)).Lossless where
  decompress_compress other := by
    by_cases hdata : other = data
    · subst hdata
      simp [zlibOn]
    · simp only [zlibOn, if_neg hdata]
  decompress_nil := rfl

/-- `zlib` that makes the given stream of the given data as well. -/
def Zlib.knowing (z : Zlib) (data stream : List UInt8) : Zlib where
  crc32 := z.crc32
  compress other := if other = data then stream else z.compress other
  decompress other := if other = stream then some data else z.decompress other

theorem Zlib.Lossless.knowing {z : Zlib} (hz : z.Lossless) {stream : List UInt8}
    (hne : stream ≠ []) (hfresh : ∀ other, z.compress other ≠ stream) (data : List UInt8) :
    (z.knowing data stream).Lossless where
  decompress_compress other := by
    by_cases hdata : other = data
    · simp only [Zlib.knowing, if_pos, hdata]
    · simp only [Zlib.knowing, if_neg hdata, if_neg (hfresh other)]
      exact hz.decompress_compress other
  decompress_nil := by
    simp only [Zlib.knowing, if_neg hne.symm]
    exact hz.decompress_nil

def whitePixel : RgbaImage := ⟨1, 1, [255, 255, 255, 255]⟩

/-- `zlib` as it is on the row of that pixel. -/
def pixelZlib : Zlib :=
  zlibOn [0, 255, 255, 255, 255]
    [0x78, 0xda, 0x63, 0xf8, 0x0f, 0x04, 0x00, 0x09, 0xfb, 0x03, 0xfd]

/-- The file of the white pixel can be cut off anywhere. -/
theorem written_file_cut_off_white_pixel : ∃ raw, writeRgbaPng pixelZlib whitePixel = .ok raw ∧
    (∀ after, readRgbaPng pixelZlib "pixel.png" (raw ++ after) = .ok whitePixel) ∧
    ∀ cut, cut <+: raw → ∀ found, readRgbaPng pixelZlib "pixel.png" cut = .ok found ↔
      found = whitePixel ∧ (cut = raw ∨ cut ++ lastChunk.bytes pixelZlib = raw) := by
  have hwrite : ∃ raw, writeRgbaPng pixelZlib whitePixel = .ok raw := ⟨_, rfl⟩
  obtain ⟨raw, hraw⟩ := hwrite
  exact ⟨raw, hraw,
    written_file_cut_off pixelZlib (lossless_zlibOn _ _) "pixel.png" whitePixel raw hraw⟩

end Hologotchi.Png
