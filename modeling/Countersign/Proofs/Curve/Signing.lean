import Countersign.Curve.Schnorr
import Countersign.Proofs.Curve.Keys

/-!
# Signatures verify

A signature names the nonce's point by its x coordinate and blinds the nonce by the challenge times the
secret. Taking the challenge times the key away from the blinded multiple leaves the nonce's point of
even y, so whatever a pair signs is accepted under its key, as long as the derived nonce is not zero.
Signing is stated for any auxiliary data, of which the zeros are a case.
-/

set_option autoImplicit false

namespace Countersign.Schnorr

open Curve

def evenNonce (k ry : ℕ) : ℕ := if ry % 2 = 0 then k else n - k

section Signing

variable (k : ℕ) (aux : Bytes) (pair : KeyPair) (message : Bytes)

def response (rx ry : ℕ) : ℕ :=
  (evenNonce k ry + challenge (Bytes.ofNatBE 32 rx) pair.publicKey.xOnly message * pair.scalar) % n

def signWithNonce : Signature :=
  let (rx, ry) := coordinates (Point.mulGenerator k)
  ⟨Bytes.ofNatBE 32 rx ++ Bytes.ofNatBE 32 (response k pair message rx ry),
    by simp [Bytes.ofNatBE_length]⟩

def nonce : ℕ :=
  Bytes.toNatBE (Sha256.tagged nonceTag
    (List.zipWith (· ^^^ ·) (Bytes.ofNatBE 32 pair.scalar) (Sha256.tagged auxTag aux)
      ++ pair.publicKey.xOnly.bytes ++ message)) % n

def signWith : Signature := signWithNonce (nonce aux pair message) pair message

theorem sign_eq_signWith : sign pair message = signWith (List.replicate 32 0) pair message := by
  unfold sign signWith signWithNonce response nonce KeyPair.scalar evenNonce
  dsimp only

end Signing

variable {k : ℕ} {aux : Bytes} {pair : KeyPair} {message : Bytes}

theorem signWithNonce_bytes {rx ry : ℕ} (h : Point.mulGenerator k = .affine rx ry) :
    (signWithNonce k pair message).bytes =
      Bytes.ofNatBE 32 rx ++ Bytes.ofNatBE 32 (response k pair message rx ry) := by
  have hc : coordinates (Point.mulGenerator k) = (rx, ry) := by
    rw [h, coordinates]
  unfold signWithNonce
  dsimp only
  rw [hc]

theorem verify_eq_true {key : XOnlyKey} {signature : Signature} {r s y : ℕ}
    (bytes : signature.bytes = Bytes.ofNatBE 32 r ++ Bytes.ofNatBE 32 s) (hr : r < p) (hs : s < n)
    (point : Point.combine s ((n - challenge (Bytes.ofNatBE 32 r) key message) % n) key.point =
      .affine r y) (even : y % 2 = 0) : verify key message signature = true := by
  have hlen := Bytes.ofNatBE_length 32 r
  have hrv : Bytes.toNatBE (Bytes.ofNatBE 32 r) = r := Bytes.toNatBE_ofNatBE (hr.trans p_lt_pow)
  have hsv : Bytes.toNatBE (Bytes.ofNatBE 32 s) = s := Bytes.toNatBE_ofNatBE (hs.trans n_lt_pow)
  unfold verify
  simp only [bytes, List.take_left' hlen, List.drop_left' hlen, hrv, hsv, hr, hs, and_self, if_true,
    point, even]
  simp

/-- What is left of the blinded multiple is the nonce's own. -/
theorem response_nsmul (rx ry : ℕ) :
    response k pair message rx ry • generator +
        ((n - challenge (Bytes.ofNatBE 32 rx) pair.publicKey.xOnly message) % n) •
          pair.scalar • generator =
      evenNonce k ry • generator := by
  generalize he : challenge (Bytes.ofNatBE 32 rx) pair.publicKey.xOnly message = e
  have hle : e ≤ n := by
    rw [← he]
    exact (Nat.mod_lt _ n_prime.pos).le
  have hblind : ((n - e) % n) • pair.scalar • generator = -((e * pair.scalar) • generator) := by
    rw [nsmul_left_comm, nsmul_mod_n, sub_nsmul_generator hle, neg_nsmul, mul_nsmul]
  rw [response, he, hblind, nsmul_mod_n, add_nsmul, add_neg_cancel_right]

theorem evenNonce_denotes (hlt : k < n) {rx ry : ℕ} (h : Point.mulGenerator k = .affine rx ry) :
    ∃ y, y % 2 = 0 ∧ (Point.affine rx y).Denotes (evenNonce k ry • generator) := by
  have hd := mulGenerator_denotes (hlt.trans n_lt_pow)
  rw [h] at hd
  rw [evenNonce]
  by_cases he : ry % 2 = 0
  · rw [if_pos he]
    exact ⟨ry, he, hd⟩
  · have hy := hd.y_lt
    have hodd : p % 2 = 1 := by decide
    rw [if_neg he, sub_nsmul_generator hlt.le]
    exact ⟨p - ry, by omega, hd.neg (by omega)⟩

theorem verify_signWithNonce (hpos : 0 < k) (hlt : k < n) :
    verify pair.publicKey.xOnly message (signWithNonce k pair message) = true := by
  have hd := mulGenerator_denotes (hlt.trans n_lt_pow)
  obtain ⟨rx, ry, hxy⟩ := hd.exists_affine (nsmul_generator_ne_zero hpos hlt)
  obtain ⟨y, heven, hy⟩ := evenNonce_denotes hlt hxy
  have hs : response k pair message rx ry < n := Nat.mod_lt _ n_prime.pos
  have he : (n - challenge (Bytes.ofNatBE 32 rx) pair.publicKey.xOnly message) % n < n :=
    Nat.mod_lt _ n_prime.pos
  have hcombine := combine_denotes pair.point_denotes (hs.trans n_lt_pow) (he.trans n_lt_pow)
  rw [response_nsmul] at hcombine
  exact verify_eq_true (signWithNonce_bytes hxy) hy.x_lt hs (hy.unique hcombine) heven

/-- A key accepts what its own secret has signed. -/
theorem verify_signWith (h : nonce aux pair message ≠ 0) :
    verify pair.publicKey.xOnly message (signWith aux pair message) = true :=
  verify_signWithNonce (Nat.pos_of_ne_zero h) (Nat.mod_lt _ n_prime.pos)

end Countersign.Schnorr
