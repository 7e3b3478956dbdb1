import Countersign.Curve.Key
import Countersign.Hash.Sha256
import Countersign.Text.Utf8

/-!
# Schnorr signatures

BIP340 signatures by x-only keys. A signature is any 64 bytes: whether they mean anything is for
`Schnorr.verify` to say. Signing derives its nonce from the secret, the key and the message, with
auxiliary data fixed at zero.
-/

set_option autoImplicit false

namespace Countersign

structure Signature where
  bytes : Bytes
  length_eq : bytes.length = 64
  deriving DecidableEq

namespace Signature

def ofBytes? (b : Bytes) : Option Signature :=
  if h : b.length = 64 then some ⟨b, h⟩ else none

theorem ofBytes?_bytes (s : Signature) : ofBytes? s.bytes = some s := by
  simp [ofBytes?, s.length_eq]

end Signature

namespace Schnorr

def challengeTag : Bytes := Utf8.encode "BIP0340/challenge"

def nonceTag : Bytes := Utf8.encode "BIP0340/nonce"

def auxTag : Bytes := Utf8.encode "BIP0340/aux"

def challenge (r : Bytes) (key : XOnlyKey) (message : Bytes) : Nat :=
  Bytes.toNatBE (Sha256.tagged challengeTag (r ++ key.bytes ++ message)) % Curve.n

/-- The point s·G - e·P must have even y and the x coordinate that the signature starts with. -/
def verify (key : XOnlyKey) (message : Bytes) (sig : Signature) : Bool :=
  let r := sig.bytes.take 32
  let s := Bytes.toNatBE (sig.bytes.drop 32)
  if Bytes.toNatBE r < Curve.p ∧ s < Curve.n then
    let e := challenge r key message
    match Curve.Point.combine s ((Curve.n - e) % Curve.n) key.point with
    | .infinity => false
    | .affine x y => y % 2 == 0 && x == Bytes.toNatBE r
  else false

def coordinates : Curve.Point → Nat × Nat
  | .infinity => (0, 0)
  | .affine x y => (x, y)

/-- Signs with one choice of the 32 bytes of auxiliary data, all of them zero, where a signer may as well
draw them at random. Both the key's point and the nonce's are replaced by their negatives where y is odd. -/
def sign (pair : KeyPair) (message : Bytes) : Signature :=
  let key := pair.publicKey.xOnly
  let d := if pair.publicKey.odd then Curve.n - pair.secret.value else pair.secret.value
  let mask := Sha256.tagged auxTag (List.replicate 32 0)
  let masked := List.zipWith (· ^^^ ·) (Bytes.ofNatBE 32 d) mask
  let k := Bytes.toNatBE (Sha256.tagged nonceTag (masked ++ key.bytes ++ message)) % Curve.n
  let (rx, ry) := coordinates (Curve.Point.mulGenerator k)
  let r := Bytes.ofNatBE 32 rx
  let evenK := if ry % 2 = 0 then k else Curve.n - k
  let s := (evenK + challenge r key message * d) % Curve.n
  ⟨r ++ Bytes.ofNatBE 32 s, by simp [r, Bytes.ofNatBE_length]⟩

end Schnorr

end Countersign
