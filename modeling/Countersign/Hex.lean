import Countersign.Text.Quoted
import Countersign.Text.Utf8

/-!
# Hexadecimal text

Binary values travel as two lowercase hexadecimal digits a byte. Reading accepts either case. It
refuses a text with an odd number of bytes before it looks at any of them, and otherwise names the
first byte that is no digit.
-/

set_option autoImplicit false

namespace Countersign.Hex

inductive Error where
  | oddLength
  | invalidByte (byte : UInt8) (index : Nat)
  deriving DecidableEq, Repr

/-- The byte is shown as the character of the same number. -/
def Error.message : Error → String
  | .oddLength => "Odd number of digits"
  | .invalidByte byte index =>
    s!"Invalid character {Quoted.char (Char.ofUInt8 byte)} at position {index}"

def digit (n : Nat) : Char := Char.ofNat (if n < 10 then 48 + n else 87 + n)

def encodeChars (b : Bytes) : List Char :=
  b.flatMap fun x => [digit (x.toNat / 16), digit (x.toNat % 16)]

def encode (b : Bytes) : String := String.ofList (encodeChars b)

def digitValue? (c : UInt8) : Option Nat :=
  if 48 ≤ c ∧ c ≤ 57 then some (c.toNat - 48)
  else if 97 ≤ c ∧ c ≤ 102 then some (c.toNat - 87)
  else if 65 ≤ c ∧ c ≤ 70 then some (c.toNat - 55)
  else none

/-- Reads pairs of digits; `index` counts the bytes already read. -/
def decodePairs (index : Nat) : Bytes → Except Error Bytes
  | [] => .ok []
  | [_] => .error .oddLength
  | a :: b :: r =>
    match digitValue? a, digitValue? b with
    | none, _ => .error (.invalidByte a index)
    | some _, none => .error (.invalidByte b (index + 1))
    | some x, some y => (decodePairs (index + 2) r).map (UInt8.ofNat (16 * x + y) :: ·)

def decodeBytes (t : Bytes) : Except Error Bytes :=
  if t.length % 2 = 1 then .error .oddLength else decodePairs 0 t

def decode (s : String) : Except Error Bytes := decodeBytes (Utf8.encode s)

def decode? (s : String) : Option Bytes := (decode s).toOption

end Countersign.Hex
