import Countersign.Bytes

/-!
# The curve secp256k1

Points satisfy y² = x³ + 7 over the field of `p` elements, and the group they form has prime order
`n` with generator `g`. Sums and multiples are computed in Jacobian coordinates, where (x, y, z)
stands for the affine point (x / z², y / z³) and z = 0 for the point at infinity, so that one
inversion at the end is enough. `liftX` finds the point of even y above an x coordinate.
-/

set_option autoImplicit false

namespace Countersign.Curve

def p : Nat := 0xfffffffffffffffffffffffffffffffffffffffffffffffffffffffefffffc2f

def n : Nat := 0xfffffffffffffffffffffffffffffffebaaedce6af48a03bbfd25e8cd0364141

inductive Point where
  | infinity
  | affine (x y : Nat)
  deriving DecidableEq, Repr

def g : Point :=
  .affine 0x79be667ef9dcbbac55a06295ce870b07029bfcdb2dce28d959f2815b16f81798
    0x483ada7726a3c4655da4fbfc0e1108a8fd17b448a68554199c47d08ffb10d4b8

/-- The power b ^ e modulo m, over the low `bits` bits of the exponent. -/
def power (m : Nat) : Nat → Nat → Nat → Nat
  | 0, _, _ => 1 % m
  | bits + 1, b, e =>
    let r := power m bits (b * b % m) (e / 2)
    if e % 2 = 1 then b * r % m else r

def inverse (a : Nat) : Nat := power p 256 a (p - 2)

structure Jacobian where
  x : Nat
  y : Nat
  z : Nat

namespace Jacobian

def infinity : Jacobian := ⟨1, 1, 0⟩

def double (a : Jacobian) : Jacobian :=
  let yy := a.y * a.y % p
  let s := 4 * a.x * yy % p
  let m := 3 * a.x * a.x % p
  let x := (m * m + 2 * (p - s)) % p
  ⟨x, (m * (s + (p - x)) + 8 * yy * (p - yy)) % p, 2 * a.y * a.z % p⟩

def add (a b : Jacobian) : Jacobian :=
  if a.z = 0 then b
  else if b.z = 0 then a
  else
    let azz := a.z * a.z % p
    let bzz := b.z * b.z % p
    let u := a.x * bzz % p
    let s := a.y * b.z % p * bzz % p
    let h := (b.x * azz + (p - u)) % p
    let r := (b.y * a.z % p * azz + (p - s)) % p
    if h = 0 then
      if r = 0 then double a else infinity
    else
      let hh := h * h % p
      let hhh := h * hh % p
      let v := u * hh % p
      let x := (r * r + (p - hhh) + 2 * (p - v)) % p
      ⟨x, (r * (v + (p - x)) + s * (p - hhh)) % p, h * a.z % p * b.z % p⟩

def mul : Nat → Nat → Jacobian → Jacobian
  | 0, _, _ => infinity
  | bits + 1, k, a =>
    let r := mul bits (k / 2) (double a)
    if k % 2 = 1 then add a r else r

def ofPoint : Point → Jacobian
  | .infinity => infinity
  | .affine x y => ⟨x, y, 1⟩

def toPoint (a : Jacobian) : Point :=
  if a.z = 0 then .infinity
  else
    let i := inverse a.z
    let ii := i * i % p
    .affine (a.x * ii % p) (a.y * ii % p * i % p)

end Jacobian

namespace Point

def combine (j k : Nat) (a : Point) : Point :=
  ((Jacobian.mul 256 j (Jacobian.ofPoint g)).add (Jacobian.mul 256 k (Jacobian.ofPoint a))).toPoint

def mulGenerator (k : Nat) : Point := (Jacobian.mul 256 k (Jacobian.ofPoint g)).toPoint

end Point

def onCurve (x y : Nat) : Bool := y * y % p == (x * x * x + 7) % p

/-- The even square root of x³ + 7, where there is one. -/
def liftX (x : Nat) : Option Nat :=
  if x < p then
    let y := power p 256 ((x * x * x + 7) % p) ((p + 1) / 4)
    if onCurve x y then some (if y % 2 = 0 then y else p - y) else none
  else none

end Countersign.Curve
