import Countersign.Bytes

/-!
# Decimal literals

A literal may be any decimal number, but a reader that holds it as a 64-bit float has room for it only
below the point where rounding reaches infinity. Signs and separators between digits do not matter for
that. Floats are taken as the rational numbers that they stand for.
-/

set_option autoImplicit false

namespace Countersign.Decimal

def isDigit (b : UInt8) : Bool := 0x30 ≤ b && b ≤ 0x39

def natOfDigits (ds : Bytes) : Nat := ds.foldl (fun n d => n * 10 + (d.toNat - 0x30)) 0

/-- Halfway between the largest float and the power of two above it. -/
def floatBound : Nat := Nat.pow 2 1024 - Nat.pow 2 970

def floatDigits : Nat := 310

def isExponentMark (b : UInt8) : Bool := b == 0x65 || b == 0x45

def scaled (literal : Bytes) : Nat × Int :=
  let significand := literal.takeWhile (!isExponentMark ·)
  let power := literal.drop (significand.length + 1)
  let decimals := (significand.dropWhile (· != 0x2e)).filter isDigit
  let exponent := Int.ofNat (natOfDigits (power.filter isDigit))
  (natOfDigits (significand.filter isDigit),
    (if power.head? = some 0x2d then -exponent else exponent) - decimals.length)

def fitsFloat (literal : Bytes) : Bool :=
  let (n, e) := scaled literal
  if n = 0 then true
  else if e > floatDigits then false
  else if 0 ≤ e then n * Nat.pow 10 e.toNat < floatBound
  else n < floatBound * Nat.pow 10 (min (-e).toNat literal.length)

def floatStep (x : Rat) : Rat :=
  let guess := Int.ofNat (Nat.log2 x.num.toNat) - Nat.log2 x.den
  let exponent := if (2 : Rat) ^ guess ≤ x then guess else guess - 1
  (2 : Rat) ^ max (exponent - 52) (-1074)

/-- The float nearest to a number that is not negative, and of two the one whose significand is even. -/
def nearestFloat (x : Rat) : Rat :=
  let step := floatStep x
  let below := (x / step).floor
  let part := x / step - below
  if part < 1 / 2 ∨ (part = 1 / 2 ∧ below % 2 = 0) then below * step else (below + 1) * step

def maxPower : Nat := 308

def floatPower (e : Nat) : Rat := nearestFloat ((10 : Rat) ^ e)

/-- Divides by a power of ten, the largest float among them at a time. Three of these leave nothing. -/
def shrink : Nat → Rat → Nat → Rat
  | 0, _, _ => 0
  | k + 1, f, e =>
    if e ≤ maxPower then nearestFloat (f / floatPower e)
    else shrink k (nearestFloat (f / floatPower maxPower)) (e - maxPower)

def absorb : Nat → Bytes → Nat × Nat
  | n, [] => (n, 0)
  | n, d :: ds =>
    let next := n * 10 + (d.toNat - 0x30)
    if next < UInt64.size then
      let (m, k) := absorb next ds
      (m, k + 1)
    else (n, 0)

/-- The float that a literal without a sign is read as, which need not be the one nearest to it: a number
of 64 bits and a power of ten are rounded each before they meet. -/
def float? (literal : Bytes) : Option Rat :=
  let significand := literal.takeWhile (!isExponentMark ·)
  let power := literal.drop (significand.length + 1)
  let whole := significand.takeWhile (· != 0x2e)
  let (n, k) := absorb 0 whole
  let (n, j) := absorb n (significand.drop (whole.length + 1))
  let exponent := Int.ofNat (natOfDigits (power.filter isDigit))
  let e := (if power.head? = some 0x2d then -exponent else exponent) + whole.length - k - j
  if e < 0 then some (shrink 3 (nearestFloat n) (-e).toNat)
  else if e ≤ maxPower then some (nearestFloat (nearestFloat n * floatPower e.toNat))
  else if n = 0 then some 0
  else none

end Countersign.Decimal
