import Countersign.Proofs.Bytes
import Countersign.Text.Base64

/-!
# Base 64 is read as it is written

Three bytes and the four digits that they are written in stand for one number. The last group may be shorter,
and is told from the others because the `=` that fills it up is no digit.
-/

set_option autoImplicit false

namespace Countersign.Base64

theorem idxOf?_digit (n : ℕ) : alphabet.idxOf? (digit n) = some (n % 64) := by
  have read : ∀ k < 64, alphabet.idxOf? (alphabet.getD k 'A') = some k := by decide +kernel
  exact read _ (Nat.mod_lt n (by decide))

theorem digit_ne_pad (n : ℕ) : digit n ≠ '=' := by
  have other : ∀ k < 64, alphabet.getD k 'A' ≠ '=' := by decide +kernel
  exact other _ (Nat.mod_lt n (by decide))

def group (a b c : UInt8) : ℕ := a.toNat * 65536 + b.toNat * 256 + c.toNat

theorem group_lt (a b c : UInt8) : group a b c < 16777216 := by
  have ha := a.toNat_lt
  have hb := b.toNat_lt
  have hc := c.toNat_lt
  unfold group
  omega

theorem ofNatBE_group (a b c : UInt8) : Bytes.ofNatBE 3 (group a b c) = [a, b, c] := by
  have number : Bytes.toNatBE [a, b, c] = group a b c := by
    simp [Bytes.toNatBE, Bytes.toNatLE, group]
    omega
  rw [← number]
  exact Bytes.ofNatBE_toNatBE [a, b, c]

theorem ofNatBE_pair (a b : UInt8) : Bytes.ofNatBE 2 (a.toNat * 256 + b.toNat) = [a, b] := by
  have number : Bytes.toNatBE [a, b] = a.toNat * 256 + b.toNat := by
    simp [Bytes.toNatBE, Bytes.toNatLE]
    omega
  rw [← number]
  exact Bytes.ofNatBE_toNatBE [a, b]

theorem decodeChars?_group (a b c : UInt8) (r : List Char) :
    decodeChars? (digit (group a b c / 262144) :: digit (group a b c / 4096) :: digit (group a b c / 64) ::
      digit (group a b c) :: r) = (decodeChars? r).map ([a, b, c] ++ ·) := by
  have bound := group_lt a b c
  have number : (group a b c / 262144 % 64 * 64 + group a b c / 4096 % 64) * 4096 +
      (group a b c / 64 % 64 * 64 + group a b c % 64) = group a b c := by
    omega
  rw [decodeChars?]
  · simp only [idxOf?_digit, Option.bind_eq_bind, Option.bind_some, number, ofNatBE_group]
    cases decodeChars? r with
    | none => rfl
    | some rest => rfl
  · intro h
    exact absurd h (digit_ne_pad _)
  · intro h
    exact absurd h (digit_ne_pad _)

theorem decodeChars?_encodeChars (b : Bytes) : decodeChars? (encodeChars b) = some b := by
  induction b using encodeChars.induct with
  | case1 => rfl
  | case2 a =>
    have ha := a.toNat_lt
    have number : a.toNat * 16 / 64 % 64 * 64 + a.toNat * 16 % 64 = a.toNat * 16 := by omega
    simp [encodeChars, decodeChars?, idxOf?_digit, number]
  | case3 a b =>
    have ha := a.toNat_lt
    have hb := b.toNat_lt
    have number : ((a.toNat * 256 + b.toNat) * 4 / 4096 % 64 * 64 + (a.toNat * 256 + b.toNat) * 4 / 64 % 64) *
        64 + (a.toNat * 256 + b.toNat) * 4 % 64 = (a.toNat * 256 + b.toNat) * 4 := by omega
    rw [encodeChars, decodeChars?]
    · simp [idxOf?_digit, number, ofNatBE_pair]
    · intro h
      exact absurd h (digit_ne_pad _)
  | case4 a b c r ih =>
    rw [encodeChars]
    refine (decodeChars?_group a b c _).trans ?_
    rw [ih]
    rfl

theorem decode?_encode (b : Bytes) : decode? (encode b) = some b := by
  rw [decode?, encode, String.toList_ofList, decodeChars?_encodeChars]

end Countersign.Base64
