import Countersign.Json.Value
import Countersign.Text.Decimal

/-!
# Reading JSON

The whole input is one value with white space around it. Strings hold no control bytes, numbers have
no leading zeros, and nesting is bounded by the length of the input alone. A string is read as pieces,
bytes and escaped units of sixteen bits, and the units are paired afterwards.
-/

set_option autoImplicit false

namespace Countersign.Json.Reader

def isSpace (b : UInt8) : Bool := b == 0x20 || b == 0x0a || b == 0x0d || b == 0x09

def skip (b : Bytes) : Bytes := b.dropWhile isSpace

def hexValue? (b : UInt8) : Option Nat :=
  if 0x30 ≤ b ∧ b ≤ 0x39 then some (b.toNat - 0x30)
  else if 0x61 ≤ b ∧ b ≤ 0x66 then some (b.toNat - 0x57)
  else if 0x41 ≤ b ∧ b ≤ 0x46 then some (b.toNat - 0x37)
  else none

def unit? (a b c d : UInt8) : Option Nat := do
  return (((← hexValue? a) * 16 + (← hexValue? b)) * 16 + (← hexValue? c)) * 16 + (← hexValue? d)

def escaped? (b : UInt8) : Option UInt8 :=
  match Char.ofUInt8 b with
  | '"' => some 0x22
  | '\\' => some 0x5c
  | '/' => some 0x2f
  | 'b' => some 0x08
  | 'f' => some 0x0c
  | 'n' => some 0x0a
  | 'r' => some 0x0d
  | 't' => some 0x09
  | _ => none

inductive Piece where
  | byte (b : UInt8)
  | unit (u : Nat)
  deriving DecidableEq

def pieces : Bytes → Option (List Piece × Bytes)
  | [] => none
  | b :: r =>
    if b = 0x22 then some ([], r)
    else if b = 0x5c then
      match r with
      | 0x75 :: h1 :: h2 :: h3 :: h4 :: r' => do
        let u ← unit? h1 h2 h3 h4
        let (ps, rest) ← pieces r'
        return (.unit u :: ps, rest)
      | e :: r' => do
        let c ← escaped? e
        let (ps, rest) ← pieces r'
        return (.byte c :: ps, rest)
      | [] => none
    else if b < 0x20 then none
    else do
      let (ps, rest) ← pieces r
      return (.byte b :: ps, rest)

def isHigh (u : Nat) : Bool := 0xd800 ≤ u && u < 0xdc00

def isLow (u : Nat) : Bool := 0xdc00 ≤ u && u < 0xe000

def unitBytes (u : Nat) : Bytes :=
  if isHigh u || isLow u then
    [0xed, UInt8.ofNat (0x80 + u / 64 % 64), UInt8.ofNat (0x80 + u % 64)]
  else String.utf8EncodeChar (Char.ofNat u)

def content : List Piece → Bytes
  | [] => []
  | .byte b :: ps => b :: content ps
  | .unit u :: .unit v :: ps =>
    if isHigh u && isLow v then
      String.utf8EncodeChar (Char.ofNat (0x10000 + (u - 0xd800) * 0x400 + (v - 0xdc00))) ++ content ps
    else unitBytes u ++ content (.unit v :: ps)
  | .unit u :: ps => unitBytes u ++ content ps

def string (b : Bytes) : Option (Bytes × Bytes) :=
  (pieces b).map fun (ps, rest) => (content ps, rest)

def digits (b : Bytes) : Option (Bytes × Bytes) :=
  let ds := b.takeWhile Decimal.isDigit
  if ds.isEmpty then none else some (ds, b.dropWhile Decimal.isDigit)

def fraction : Bytes → Option (Bytes × Bytes)
  | 0x2e :: r => (digits r).map fun (ds, rest) => (0x2e :: ds, rest)
  | r => some ([], r)

def exponentSign : Bytes → Bytes × Bytes
  | b :: r => if b = 0x2b ∨ b = 0x2d then ([b], r) else ([], b :: r)
  | [] => ([], [])

def exponent : Bytes → Option (Bytes × Bytes)
  | b :: r =>
    if b = 0x65 ∨ b = 0x45 then
      let (sign, r') := exponentSign r
      (digits r').map fun (ds, rest) => (b :: (sign ++ ds), rest)
    else some ([], b :: r)
  | [] => some ([], [])

def minus : Bytes → Bool × Bytes
  | 0x2d :: r => (true, r)
  | r => (false, r)

def number (b : Bytes) : Option (Json × Bytes) := do
  let (negative, r) := minus b
  let (whole, r) ← digits r
  if whole.head? = some 0x30 ∧ whole.length ≠ 1 then failure
  let (part, r) ← fraction r
  let (power, r) ← exponent r
  let n := Decimal.natOfDigits whole
  if part.isEmpty && power.isEmpty && !(negative && n == 0) then
    return (.integer (if negative then - Int.ofNat n else Int.ofNat n), r)
  else return (.decimal ((if negative then [0x2d] else []) ++ whole ++ part ++ power), r)

def word (s : String) (v : Json) (b : Bytes) : Option (Json × Bytes) :=
  let w := Utf8.encode s
  if w.isPrefixOf b then some (v, b.drop w.length) else none

def colon (b : Bytes) : Option Bytes :=
  match skip b with
  | 0x3a :: r => some r
  | _ => none

def name (b : Bytes) : Option (Bytes × Bytes) :=
  match skip b with
  | 0x22 :: r => string r
  | _ => none

mutual

/-- Each call on a shorter input may be made from one on the same input, so twice the length of the
input is depth enough. -/
def value : Nat → Bytes → Option (Json × Bytes)
  | 0, _ => none
  | k + 1, b =>
    match skip b with
    | [] => none
    | c :: r =>
      match Char.ofUInt8 c with
      | '"' => (string r).map fun (s, rest) => (.string s, rest)
      | '[' =>
        match skip r with
        | 0x5d :: rest => some (.array [], rest)
        | _ => (items k r).map fun (vs, rest) => (.array vs, rest)
      | '{' =>
        match skip r with
        | 0x7d :: rest => some (.object [], rest)
        | _ => (members k r).map fun (ms, rest) => (.object ms, rest)
      | 'n' => word "ull" .null r
      | 't' => word "rue" (.bool true) r
      | 'f' => word "alse" (.bool false) r
      | _ => number (c :: r)

def items : Nat → Bytes → Option (List Json × Bytes)
  | 0, _ => none
  | k + 1, b => do
    let (v, r) ← value k b
    match skip r with
    | 0x2c :: r' => do
      let (vs, rest) ← items k r'
      return (v :: vs, rest)
    | 0x5d :: rest => return ([v], rest)
    | _ => none

def members : Nat → Bytes → Option (List (Bytes × Json) × Bytes)
  | 0, _ => none
  | k + 1, b => do
    let (n, r) ← name b
    let r ← colon r
    let (v, r) ← value k r
    match skip r with
    | 0x2c :: r' => do
      let (ms, rest) ← members k r'
      return ((n, v) :: ms, rest)
    | 0x7d :: rest => return ([(n, v)], rest)
    | _ => none

end

end Reader

def ofBytes? (b : Bytes) : Option Json :=
  match Reader.value (2 * b.length + 2) b with
  | some (v, rest) => if (Reader.skip rest).isEmpty then some v else none
  | none => none

def parse? (s : String) : Option Json := ofBytes? (Utf8.encode s)

end Countersign.Json
