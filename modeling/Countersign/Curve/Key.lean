import Countersign.Curve.Group

/-!
# Keys

An x-only key is the 32-byte x coordinate of a point, and stands for the one of the two points above
it whose y is even. A public key is an x-only key with the parity of y, so the two full keys over one
x coordinate differ in `odd` alone. A secret key is a number in [1, n - 1].
-/

set_option autoImplicit false

namespace Countersign

def IsXOnly (b : Bytes) : Bool := b.length == 32 && (Curve.liftX b.toNatBE).isSome

structure XOnlyKey where
  bytes : Bytes
  valid : IsXOnly bytes = true
  deriving DecidableEq

namespace XOnlyKey

def ofBytes? (b : Bytes) : Option XOnlyKey :=
  if h : IsXOnly b = true then some ⟨b, h⟩ else none

def x (k : XOnlyKey) : Nat := k.bytes.toNatBE

def y (k : XOnlyKey) : Nat := (Curve.liftX k.x).getD 0

def point (k : XOnlyKey) : Curve.Point := .affine k.x k.y

theorem bytes_length (k : XOnlyKey) : k.bytes.length = 32 := by
  have h := k.valid
  simp [IsXOnly] at h
  exact h.1

theorem bytes_injective {k l : XOnlyKey} (h : k.bytes = l.bytes) : k = l := by
  cases k
  cases l
  simp_all

theorem ofBytes?_bytes (k : XOnlyKey) : ofBytes? k.bytes = some k := by
  simp [ofBytes?, k.valid]

theorem ofBytes?_eq_some {b : Bytes} {k : XOnlyKey} (h : ofBytes? b = some k) : k.bytes = b := by
  simp only [ofBytes?] at h
  split at h
  · simp only [Option.some.injEq] at h
    subst h
    rfl
  · simp at h

end XOnlyKey

structure PublicKey where
  xOnly : XOnlyKey
  odd : Bool
  deriving DecidableEq

namespace PublicKey

def bytes (k : PublicKey) : Bytes := (if k.odd then 3 else 2) :: k.xOnly.bytes

def ofPoint? : Curve.Point → Option PublicKey
  | .infinity => none
  | .affine x y => (XOnlyKey.ofBytes? (Bytes.ofNatBE 32 x)).map fun k => ⟨k, y % 2 == 1⟩

def ofCompressed? : Bytes → Option PublicKey
  | 2 :: x => (XOnlyKey.ofBytes? x).map fun k => ⟨k, false⟩
  | 3 :: x => (XOnlyKey.ofBytes? x).map fun k => ⟨k, true⟩
  | _ => none

/-- Both coordinates after a byte that may repeat the parity of y: 4 says nothing, 6 even, 7 odd. -/
def ofUncompressed? : Bytes → Option PublicKey
  | form :: rest =>
    let x := Bytes.toNatBE (rest.take 32)
    let y := Bytes.toNatBE (rest.drop 32)
    if rest.length = 64 ∧ x < Curve.p ∧ y < Curve.p ∧ Curve.onCurve x y ∧
        (form = 4 ∨ form.toNat = 6 + y % 2) then
      ofPoint? (.affine x y)
    else none
  | [] => none

def ofBytes? (b : Bytes) : Option PublicKey :=
  if b.length = 33 then ofCompressed? b else ofUncompressed? b

theorem bytes_length (k : PublicKey) : k.bytes.length = 33 := by
  simp [bytes, k.xOnly.bytes_length]

theorem ofCompressed?_bytes (k : PublicKey) : ofCompressed? k.bytes = some k := by
  obtain ⟨x, odd⟩ := k
  cases odd <;> simp [bytes, ofCompressed?, XOnlyKey.ofBytes?_bytes]

theorem ofCompressed?_eq_some_iff {b : Bytes} {k : PublicKey} :
    ofCompressed? b = some k ↔ b = k.bytes := by
  constructor
  · intro h
    unfold ofCompressed? at h
    split at h
    · obtain ⟨x, hx, rfl⟩ := Option.map_eq_some_iff.mp h
      rw [← XOnlyKey.ofBytes?_eq_some hx]
      rfl
    · obtain ⟨x, hx, rfl⟩ := Option.map_eq_some_iff.mp h
      rw [← XOnlyKey.ofBytes?_eq_some hx]
      rfl
    · cases h
  · intro h
    rw [h, ofCompressed?_bytes]

theorem ofBytes?_eq_some_iff {b : Bytes} {k : PublicKey} (compressed : b.length = 33) :
    ofBytes? b = some k ↔ b = k.bytes := by
  rw [ofBytes?, if_pos compressed, ofCompressed?_eq_some_iff]

theorem ofBytes?_bytes (k : PublicKey) : ofBytes? k.bytes = some k := by
  simp [ofBytes?, k.bytes_length, ofCompressed?_bytes]

theorem bytes_injective {k l : PublicKey} (h : k.bytes = l.bytes) : k = l := by
  have h' := congrArg ofCompressed? h
  simpa [ofCompressed?_bytes] using h'

end PublicKey

structure SecretKey where
  value : Nat
  pos : 0 < value
  lt : value < Curve.n
  deriving DecidableEq

namespace SecretKey

def ofBytes? (b : Bytes) : Option SecretKey :=
  if b.length = 32 then
    if h : 0 < b.toNatBE ∧ b.toNatBE < Curve.n then some ⟨b.toNatBE, h.1, h.2⟩ else none
  else none

def bytes (s : SecretKey) : Bytes := Bytes.ofNatBE 32 s.value

def publicKey? (s : SecretKey) : Option PublicKey :=
  PublicKey.ofPoint? (Curve.Point.mulGenerator s.value)

end SecretKey

structure KeyPair where
  secret : SecretKey
  publicKey : PublicKey
  derives : secret.publicKey? = some publicKey

def KeyPair.ofSecret? (s : SecretKey) : Option KeyPair :=
  match h : s.publicKey? with
  | some k => some ⟨s, k, h⟩
  | none => none

/-- A key moved by `t` times the generator, unless `t` is out of range or the sum is infinite. -/
def XOnlyKey.tweak? (k : XOnlyKey) (t : Nat) : Option PublicKey :=
  if t < Curve.n then PublicKey.ofPoint? (Curve.Point.combine t 1 k.point) else none

end Countersign
