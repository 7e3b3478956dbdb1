import Countersign.Curve.Group
import Countersign.Bytes

/-!
# Signatures in DER

An ECDSA signature is a sequence of two integers. Lengths and integers must have their shortest form,
but a number that is negative or not below the group order only makes that number zero.
-/

set_option autoImplicit false

namespace Countersign.Der

/-- A length, which may not reach beyond what follows it. -/
def length? : Bytes → Option (Nat × Bytes)
  | [] => none
  | b :: r =>
    if b < 0x80 then some (b.toNat, r)
    else if b = 0xff ∨ b = 0x80 then none
    else
      let width := b.toNat - 0x80
      let n := Bytes.toNatBE (r.take width)
      let rest := r.drop width
      if width > r.length ∨ r.head? = some 0 ∨ width > 8 ∨ n > rest.length ∨ n < 0x80 then none
      else some (n, rest)

def isShortest (b : Bytes) : Bool :=
  match b with
  | [] => false
  | [_] => true
  | a :: c :: _ => !(a == 0 && c < 0x80) && !(a == 0xff && c ≥ 0x80)

def scalar (b : Bytes) : Nat :=
  let n := Bytes.toNatBE b
  if (b.head?.getD 0) ≥ 0x80 ∨ n ≥ Curve.n then 0 else n

def integer? : Bytes → Option (Nat × Bytes)
  | 0x02 :: r => do
    let (n, r) ← length? r
    let b := r.take n
    if n ≤ r.length ∧ isShortest b then some (scalar b, r.drop n) else none
  | _ => none

def decode? : Bytes → Option (Nat × Nat)
  | 0x30 :: r => do
    let (n, body) ← length? r
    if n ≠ body.length then none
    else
      let (a, rest) ← integer? body
      let (b, rest) ← integer? rest
      if rest.isEmpty then some (a, b) else none
  | _ => none

def encodeInteger (n : Nat) : Bytes :=
  let digits := (Bytes.ofNatBE 33 n).dropWhile (· == 0)
  let b := if (digits.head?.getD 0x80) ≥ 0x80 then 0 :: digits else digits
  0x02 :: UInt8.ofNat b.length :: b

def encode (s : Nat × Nat) : Bytes :=
  let body := encodeInteger s.1 ++ encodeInteger s.2
  0x30 :: UInt8.ofNat body.length :: body

end Countersign.Der
