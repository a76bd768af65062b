import Hologotchi.Library.Records
import Hologotchi.Png.Reader
import Hologotchi.Python

/-! PNG files and their chunks (`read_rgba_png` and `write_rgba_png` of
`host/tools/convert_sprite_sheet.py`). -/
namespace Hologotchi.Png

open Library

inductive FileError
  | png (error : PngError)
  | structError
  | zlibError
  | unicodeDecodeError
  deriving DecidableEq, Repr

/-- The functions used of the module `zlib`. Where `decompress` raises an error it is `none`. -/
structure Zlib where
  crc32 : List UInt8 → UInt32
  compress : List UInt8 → List UInt8
  decompress : List UInt8 → Option (List UInt8)

/-- `PNG_SIGNATURE`. -/
def signature : List UInt8 := [0x89, 0x50, 0x4e, 0x47, 0x0d, 0x0a, 0x1a, 0x0a]

/-- `struct.unpack(">I", data)` of four bytes. -/
def unpackU32 (data : List UInt8) : ℕ := data.foldl (fun n byte => n * 256 + byte.toNat) 0

/-- The four bytes of a number, the highest first. -/
def bigEndian (n : ℕ) : List UInt8 :=
  [UInt8.ofNat (n / 2 ^ 24), UInt8.ofNat (n / 2 ^ 16), UInt8.ofNat (n / 2 ^ 8), UInt8.ofNat n]

/-- `struct.pack(">I", n)`. -/
def packU32 (n : ℕ) : Except FileError (List UInt8) :=
  if n < 2 ^ 32 then .ok (bigEndian n) else .error .structError

def valueError {α : Type} (message : String) : Except FileError α :=
  .error (.png (.valueError message))

def text (data : List UInt8) : String := String.ofList (data.map fun byte => Char.ofNat byte.toNat)

/-- A byte in the `repr` of `bytes` with the given quotes. -/
def reprByte (quote byte : UInt8) : List UInt8 :=
  let digit (n : ℕ) : UInt8 := UInt8.ofNat (if n < 10 then 48 + n else 87 + n)
  if byte = quote ∨ byte = 92 then [92, byte]
  else if byte = 9 then [92, 116]
  else if byte = 10 then [92, 110]
  else if byte = 13 then [92, 114]
  else if byte < 32 ∨ 127 ≤ byte then [92, 120, digit (byte.toNat / 16), digit (byte.toNat % 16)]
  else [byte]

/-- `repr(data)`: in single quotes, unless there are such quotes in it and no double ones. -/
def reprBytes (data : List UInt8) : String :=
  let quote := if 39 ∈ data ∧ 34 ∉ data then 34 else 39
  text ([98, quote] ++ data.flatMap (reprByte quote) ++ [quote])

structure Chunk where
  kind : List UInt8
  data : List UInt8
  length_kind : kind.length = 4
  length_data : data.length < 2 ^ 32

/-- `b"IHDR"`. -/
def Chunk.ihdr : List UInt8 := [0x49, 0x48, 0x44, 0x52]

/-- `b"IDAT"`. -/
def Chunk.idat : List UInt8 := [0x49, 0x44, 0x41, 0x54]

/-- `b"IEND"`. -/
def Chunk.iend : List UInt8 := [0x49, 0x45, 0x4e, 0x44]

theorem unpackU32_lt {data : List UInt8} (h : data.length ≤ 4) : unpackU32 data < 2 ^ 32 := by
  have hbound (bytes : List UInt8) (n : ℕ) :
      bytes.foldl (fun n byte => n * 256 + byte.toNat) n < (n + 1) * 256 ^ bytes.length := by
    induction bytes generalizing n with
    | nil => simp
    | cons byte bytes ih =>
      have hbyte : byte.toNat < 256 := byte.toNat_lt
      calc (byte :: bytes).foldl (fun n byte => n * 256 + byte.toNat) n
          < (n * 256 + byte.toNat + 1) * 256 ^ bytes.length := ih _
        _ ≤ ((n + 1) * 256) * 256 ^ bytes.length := Nat.mul_le_mul_right _ (by omega)
        _ = (n + 1) * 256 ^ (byte :: bytes).length := by
          rw [List.length_cons, Nat.pow_succ', Nat.mul_assoc]
  have hpow : 256 ^ data.length ≤ 256 ^ 4 := Nat.pow_le_pow_right (by decide) h
  have hdata := hbound data 0
  rw [Nat.zero_add, Nat.one_mul] at hdata
  exact Nat.lt_of_lt_of_le hdata (by simpa using hpow)

/-- The chunk at a position that is not past the end, its CRC checked, and what follows it. -/
def nextChunk (z : Zlib) (path : String) (raw : List UInt8) :
    Except FileError (Chunk × List UInt8) :=
  if hshort : raw.length < 12 then valueError s!"{path} has a truncated PNG chunk"
  else
    let length := unpackU32 (raw.take 4)
    let chunkType := (raw.drop 4).take 4
    let chunk := (raw.drop 8).take length
    let crc := (raw.drop (8 + length)).take 4
    if hcut : chunk.length ≠ length ∨ crc.length ≠ 4 then
      let name := reprBytes chunkType
      valueError s!"{path} has a truncated {name} chunk"
    else if (z.crc32 (chunkType ++ chunk)).toNat ≠ unpackU32 crc then
      if chunkType.all (· < 128) then
        let name := text chunkType
        valueError s!"{path} has a bad {name} CRC"
      else .error .unicodeDecodeError
    else .ok ({
      kind := chunkType
      data := chunk
      length_kind := by
        simp only [chunkType, List.length_take, List.length_drop]
        omega
      length_data := by
        rw [not_not.mp (not_or.mp hcut).1]
        exact unpackU32_lt (List.length_take_le 4 raw) }, raw.drop (12 + length))

/-- The numbers of IHDR that are looked at. -/
structure Header where
  width : ℕ
  height : ℕ
  bitDepth : ℕ
  colorType : ℕ
  interlace : ℕ
  deriving DecidableEq, Repr

/-- `struct.unpack(">IIBBBBB", chunk)`. -/
def unpackHeader : List UInt8 → Except FileError Header
  | [w₀, w₁, w₂, w₃, h₀, h₁, h₂, h₃, bitDepth, colorType, _, _, interlace] =>
    .ok ⟨unpackU32 [w₀, w₁, w₂, w₃], unpackU32 [h₀, h₁, h₂, h₃], bitDepth.toNat, colorType.toNat,
      interlace.toNat⟩
  | _ => .error .structError

/-- What is known from the chunks before a position, the image data joined. -/
structure Collected where
  header : Option Header
  idat : List UInt8
  deriving DecidableEq, Repr

def Collected.add (got : Collected) (chunk : Chunk) : Except FileError Collected :=
  if chunk.kind = Chunk.ihdr then do .ok { got with header := some (← unpackHeader chunk.data) }
  else if chunk.kind = Chunk.idat then .ok { got with idat := got.idat ++ chunk.data }
  else .ok got

theorem length_lt_of_nextChunk {z : Zlib} {path : String} {raw rest : List UInt8} {chunk : Chunk}
    (h : nextChunk z path raw = .ok (chunk, rest)) : rest.length < raw.length := by
  unfold nextChunk valueError at h
  split at h
  · contradiction
  · dsimp only at h
    split at h
    · contradiction
    · split at h
      · split at h <;> contradiction
      · cases h
        rw [List.length_drop]
        omega

/-- The chunk loop of `read_rgba_png`. -/
def readChunks (z : Zlib) (path : String) (got : Collected) (raw : List UInt8) :
    Except FileError Collected :=
  if raw = [] then .ok got
  else match _h : nextChunk z path raw with
    | .error error => .error error
    | .ok (chunk, rest) =>
      if chunk.kind = Chunk.iend then .ok got
      else match got.add chunk with
        | .error error => .error error
        | .ok got => readChunks z path got rest
termination_by raw.length
decreasing_by exact length_lt_of_nextChunk _h

/-- `read_rgba_png` after the chunk loop. -/
def imageOf (z : Zlib) (path : String) (got : Collected) : Except FileError RgbaImage :=
  match got.header with
  | none => valueError s!"{path} is missing IHDR"
  | some ⟨width, height, bitDepth, colorType, interlace⟩ =>
    if bitDepth ≠ 8 ∨ colorType ≠ 6 ∨ interlace ≠ 0 then
      valueError (s!"{path} must be 8-bit non-interlaced RGBA; " ++
        s!"got bit_depth={bitDepth}, color_type={colorType}, interlace={interlace}")
    else match z.decompress got.idat with
      | none => .error .zlibError
      | some decompressed => (readPixels path width height decompressed).mapError .png

def readRgbaPng (z : Zlib) (path : String) (raw : List UInt8) : Except FileError RgbaImage :=
  if ¬ signature <+: raw then valueError s!"{path} is not a PNG file"
  else do imageOf z path (← readChunks z path ⟨none, []⟩ (raw.drop signature.length))

def pngChunk (z : Zlib) (kind payload : List UInt8) : Except FileError (List UInt8) := do
  .ok ((← packU32 payload.length) ++ kind ++ payload ++
    bigEndian (z.crc32 (kind ++ payload)).toNat)

/-- The rows of an image, each after the filter type 0. -/
def rowsOf (image : RgbaImage) : List UInt8 :=
  let stride := image.width * 4
  (List.range image.height).flatMap fun y => 0 :: (image.pixels.drop (y * stride)).take stride

/-- `write_rgba_png`: the bytes of the file. -/
def writeRgbaPng (z : Zlib) (image : RgbaImage) : Except FileError (List UInt8) := do
  if image.pixels.length ≠ image.height * (image.width * 4) then
    valueError "image pixel buffer does not match dimensions"
  else
    let width ← packU32 image.width
    let height ← packU32 image.height
    let header ← pngChunk z Chunk.ihdr (width ++ height ++ [8, 6, 0, 0, 0])
    let data ← pngChunk z Chunk.idat (z.compress (rowsOf image))
    let last ← pngChunk z Chunk.iend []
    .ok (signature ++ header ++ data ++ last)

end Hologotchi.Png
