import KanariEvm.Primitives
import Mathlib.Data.List.DropRight

namespace KanariEvm

inductive HexError
  | oddLength
  | invalidChar
  | invalidLength (want got : ℕ)
deriving DecidableEq

/-- The characters `str::trim` strips: Unicode `White_Space`. -/
def isWhitespace (c : Char) : Bool :=
  let n := c.toNat
  (9 ≤ n ∧ n ≤ 13) ∨ n = 0x20 ∨ n = 0x85 ∨ n = 0xa0 ∨ n = 0x1680 ∨ (0x2000 ≤ n ∧ n ≤ 0x200a) ∨
    n = 0x2028 ∨ n = 0x2029 ∨ n = 0x202f ∨ n = 0x205f ∨ n = 0x3000

def trim (s : List Char) : List Char := (s.dropWhile isWhitespace).rdropWhile isWhitespace

/-- `trim_start_matches("0x")`: the prefix is stripped as often as it repeats. -/
def trimStart0x : List Char → List Char
  | '0' :: 'x' :: rest => trimStart0x rest
  | s => s

/-- `strip_prefix` of const-hex, which the `FromStr` of alloy's byte strings go through: one prefix,
in either case. -/
def stripHexPrefix : List Char → List Char
  | '0' :: 'x' :: rest => rest
  | '0' :: 'X' :: rest => rest
  | s => s

def utf8 (s : List Char) : Bytes := s.flatMap fun c => (String.utf8EncodeChar c).map (·.toBitVec)

def hexValue (b : U8) : Option ℕ :=
  let n := b.toNat
  if 0x30 ≤ n ∧ n ≤ 0x39 then some (n - 0x30)
  else if 0x41 ≤ n ∧ n ≤ 0x46 then some (n - 0x37)
  else if 0x61 ≤ n ∧ n ≤ 0x66 then some (n - 0x57)
  else none

def hexDigitsValue (acc : ℕ) : Bytes → Option ℕ
  | [] => some acc
  | b :: rest => (hexValue b).bind fun d => hexDigitsValue (16 * acc + d) rest

/-- `from_str_radix(src, 16)` of a `w`-bit unsigned integer; a leading `+` is accepted. -/
def fromStrRadix16 (w : ℕ) (src : Bytes) : Option (BitVec w) :=
  let digits := match src with
    | 0x2b :: rest => rest
    | _ => src
  if digits = [] then none
  else (hexDigitsValue 0 digits).bind fun n => if n < 2 ^ w then some (BitVec.ofNat w n) else none

/-- The chunk loop of `hex_decode`. A chunk that splits a multi-byte character fails like any
other that holds no hex digits. -/
def hexDecodePairs : Bytes → Except HexError Bytes
  | a :: b :: rest =>
    match fromStrRadix16 8 [a, b] with
    | none => .error .invalidChar
    | some byte => (hexDecodePairs rest).map (byte :: ·)
  | [_] => .error .invalidChar
  | [] => .ok []

/-- Decode hex with or without a `0x` prefix (surrounding whitespace tolerated). -/
def hexDecode (hex : List Char) : Except HexError Bytes :=
  let bytes := utf8 (trimStart0x (trim hex))
  if bytes.length % 2 ≠ 0 then .error .oddLength else hexDecodePairs bytes

def hexDecode32 (hex : List Char) : Except HexError Bytes := do
  let bytes ← hexDecode hex
  if bytes.length = 32 then return bytes else throw (.invalidLength 32 bytes.length)

example : hexDecode "  0xAB01  ".toList = .ok [0xab, 0x01] := by decide +kernel

end KanariEvm
