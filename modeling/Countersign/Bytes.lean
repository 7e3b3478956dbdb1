/-!
# Byte strings

Everything that is hashed, pushed on a script stack or written on the wire is a list of bytes.
Numbers of a fixed width are written low byte first (`ofNatLE`) or high byte first (`ofNatBE`),
and `split?` cuts a prefix of known length off a byte string. Byte strings are ordered
lexicographically, which for two strings of one width is the order of the numbers they write high
byte first.
-/

set_option autoImplicit false

namespace Countersign

abbrev Bytes := List UInt8

namespace Bytes

def toNatLE : Bytes → Nat
  | [] => 0
  | b :: r => b.toNat + 256 * toNatLE r

def ofNatLE : Nat → Nat → Bytes
  | 0, _ => []
  | width + 1, n => UInt8.ofNat n :: ofNatLE width (n / 256)

def toNatBE (b : Bytes) : Nat := toNatLE b.reverse

def ofNatBE (width n : Nat) : Bytes := (ofNatLE width n).reverse

def split? (n : Nat) (b : Bytes) : Option (Bytes × Bytes) :=
  if n ≤ b.length then some (b.take n, b.drop n) else none

/-- Lexicographic order, the shorter of two strings first when it starts the other. -/
def le : Bytes → Bytes → Bool
  | [], _ => true
  | _ :: _, [] => false
  | a :: r, b :: s => a < b || (a == b && le r s)

theorem ofNatLE_length (width n : Nat) : (ofNatLE width n).length = width := by
  induction width generalizing n with
  | zero => rfl
  | succ width ih => simp [ofNatLE, ih]

theorem ofNatBE_length (width n : Nat) : (ofNatBE width n).length = width := by
  simp [ofNatBE, ofNatLE_length]

theorem toNatLE_ofNatLE (width n : Nat) : toNatLE (ofNatLE width n) = n % Nat.pow 256 width := by
  induction width generalizing n with
  | zero => exact (Nat.mod_one n).symm
  | succ width ih =>
    rw [ofNatLE, toNatLE, ih, UInt8.toNat_ofNat', show Nat.pow 256 (width + 1) = _ from Nat.mul_comm _ _,
      Nat.mod_mul]

theorem ofNatLE_toNatLE (b : Bytes) : ofNatLE b.length (toNatLE b) = b := by
  induction b with
  | nil => rfl
  | cons a r ih =>
    have ha : a.toNat < 256 := a.toNat_lt
    simp only [List.length_cons, ofNatLE, toNatLE]
    rw [show (a.toNat + 256 * toNatLE r) / 256 = toNatLE r by omega, ih]
    congr 1
    apply UInt8.toNat_inj.1
    rw [UInt8.toNat_ofNat']
    omega

theorem split?_append (b r : Bytes) : split? b.length (b ++ r) = some (b, r) := by
  simp [split?]

theorem append_of_split? {n : Nat} {b p r : Bytes} (h : split? n b = some (p, r)) :
    b = p ++ r ∧ p.length = n := by
  simp only [split?] at h
  split at h
  · rename_i hn
    simp only [Option.some.injEq, Prod.mk.injEq] at h
    obtain ⟨rfl, rfl⟩ := h
    exact ⟨(List.take_append_drop n b).symm, by simp [hn]⟩
  · simp at h

end Bytes

end Countersign
