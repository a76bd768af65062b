import Hologotchi.Library.FlatJson
import Hologotchi.Library.Trim
import Mathlib.Data.Rat.Defs
import Mathlib.Algebra.Order.Ring.Unbundled.Rat

/-! The Python values the host works with: strings, numbers and decoded JSON. -/
namespace Hologotchi.Python

/-- A `str` as its code points; lone surrogates are code points like any other. -/
abbrev Str := List ℕ

instance : LawfulBEq Str := inferInstance

def str (s : String) : Str := Library.FlatJson.text s

/-- `str.isspace` of one code point. -/
def isSpace (c : ℕ) : Bool :=
  (9 ≤ c && c ≤ 13) || (28 ≤ c && c ≤ 32) || c == 0x85 || c == 0xa0 || c == 0x1680 ||
    (0x2000 ≤ c && c ≤ 0x200a) || c == 0x2028 || c == 0x2029 || c == 0x202f || c == 0x205f ||
    c == 0x3000

/-- `str.strip()`. -/
def strip (s : Str) : Str := Library.Trim.trim isSpace s

/-- `int(s)` of ASCII text: blanks around it, a sign, digits with single underscores inside. -/
def parseInt (s : Str) : Option ℤ :=
  let number (digits : Str) : Option ℤ :=
    let groups := digits.splitOn 95
    if groups.all fun g => g ≠ [] ∧ g.all Library.FlatJson.isDigit then
      some (Library.FlatJson.undecimal groups.flatten)
    else none
  match strip s with
  | 45 :: digits => (number digits).map (- ·)
  | 43 :: digits => number digits
  | digits => number digits

/-- `str.lower()` as far as comparisons with ASCII words can tell: the ASCII capitals and the Kelvin
sign. Every other code point stays as it is or becomes something with a code point outside ASCII:
U+0130 becomes an `i` with a combining dot, which matches in no such word either. -/
def lower (s : Str) : Str :=
  s.map fun c => if 65 ≤ c ∧ c ≤ 90 then c + 32 else if c = 0x212a then 107 else c

def isAscii (s : Str) : Bool := s.all (· < 128)

/-- `str.isprintable()` of one ASCII code point. -/
def isPrintable (c : ℕ) : Bool := 32 ≤ c && c ≤ 126

/-- `bytes.decode("ascii")`. -/
def decodeAscii (b : List UInt8) : Option Str :=
  if b.all (· < 128) then some (b.map UInt8.toNat) else none

/-- `str.encode("ascii")`. -/
def encodeAscii (s : Str) : List UInt8 := s.map UInt8.ofNat

theorem toNat_encodeAscii {s : Str} (h : ∀ c ∈ s, c < 128) :
    (encodeAscii s).map UInt8.toNat = s := by
  have hid : s.map (UInt8.toNat ∘ UInt8.ofNat) = s.map id := by
    apply List.map_congr_left
    intro c hc
    have hlt := h c hc
    simp only [Function.comp_apply, id_eq]
    rw [UInt8.toNat_ofNat']
    omega
  rw [encodeAscii, List.map_map, hid, List.map_id]

theorem decodeAscii_encodeAscii {s : Str} (h : isAscii s = true) :
    decodeAscii (encodeAscii s) = some s := by
  have hlt : ∀ c ∈ s, c < 128 := by simpa [isAscii] using h
  have hcodes := toNat_encodeAscii hlt
  have hall : (encodeAscii s).all (· < 128) = true := by
    apply List.all_eq_true.mpr
    intro b hb
    have hmem : b.toNat ∈ s := by
      rw [← hcodes]
      exact List.mem_map_of_mem hb
    have h128 : (128 : UInt8).toNat = 128 := rfl
    rw [decide_eq_true_eq, UInt8.lt_iff_toNat_lt, h128]
    exact hlt _ hmem
  rw [decodeAscii, if_pos hall, hcodes]

/-- A `float`, exact where it is finite. -/
inductive Double
  | nan
  | posInf
  | negInf
  | finite (q : ℚ)
  deriving DecidableEq, Repr

namespace Double

/-- IEEE `<`: nothing compares with NaN. -/
def lt : Double → Double → Bool
  | .finite a, .finite b => a < b
  | .negInf, .finite _ | .negInf, .posInf | .finite _, .posInf => true
  | _, _ => false

/-- IEEE `<=`. -/
def le : Double → Double → Bool
  | .finite a, .finite b => a ≤ b
  | .negInf, .negInf | .posInf, .posInf => true
  | .negInf, .finite _ | .negInf, .posInf | .finite _, .posInf => true
  | _, _ => false

end Double

/-- `float(n)` and `math.isfinite(n)` of an integer are defined: it does not round past the
largest double. -/
def fitsFloat (n : ℤ) : Bool := n.natAbs < 2 ^ 1024 - 2 ^ 970

/-- `float(n)` of an integer it is defined for: 53 bits, halfway cases to the even one. -/
def Double.ofInt (n : ℤ) : Double :=
  let size := n.natAbs
  let unit := 2 ^ (size.log2 - 52)
  let kept := size / unit
  let rest := size % unit
  let rounded := if unit < 2 * rest ∨ (unit = 2 * rest ∧ kept % 2 = 1) then kept + 1 else kept
  .finite (n.sign * (rounded * unit : ℕ))

/-- What `json.loads` returns. The keys of a `dict` are distinct. -/
inductive Json
  | null
  | bool (b : Bool)
  | int (n : ℤ)
  | float (x : Double)
  | str (s : Str)
  | arr (items : List Json)
  | obj (fields : List (Str × Json))

namespace Json

/-- `dict.get(key, default)`. -/
def getD (fields : List (Str × Json)) (key : String) (default : Json) : Json :=
  (fields.lookup (Python.str key)).getD default

/-- `dict.get(key)`: a missing key reads as `None`. -/
def get (fields : List (Str × Json)) (key : String) : Json := getD fields key .null

/-- `value == n` for an integer `n`; a boolean counts as 0 or 1. -/
def equalsInt (n : ℤ) : Json → Bool
  | .int m => m == n
  | .bool b => (if b then 1 else 0) == n
  | .float (.finite q) => q == n
  | _ => false

/-- `value == s` for a string `s`. -/
def equalsStr (s : Str) : Json → Bool
  | .str t => t == s
  | _ => false

/-- The `dict` a flat object without escapes denotes. -/
def ofFlat (fs : Library.FlatJson.Fields) : Json :=
  .obj <| fs.map fun f => (f.1, match f.2 with
    | .null => .null
    | .bool b => .bool b
    | .int n => .int n
    | .str body => .str body)

end Json

end Hologotchi.Python
