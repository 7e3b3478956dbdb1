import Mathlib.FieldTheory.Finite.Basic
import Mathlib.Tactic.NormNum.Prime
import Countersign.Curve.Group

/-!
# The primes of the curve

A number is prime when enough of the factorization of its predecessor is known, and some base has the
full order for each of these factors. Such a base and such factors prove the field size `p` and the
group order `n` prime, by way of the primes that occur in between.
-/

set_option autoImplicit false

namespace Countersign.Curve

theorem power_eq {m bits b e : ℕ} (h : e < 2 ^ bits) : power m bits b e = b ^ e % m := by
  induction bits generalizing b e with
  | zero =>
    have he : e = 0 := by simpa using h
    rw [he, pow_zero, power]
  | succ bits ih =>
    have hhalf : e / 2 < 2 ^ bits := by
      rw [pow_succ] at h
      omega
    have hsquare : (b * b % m) ^ (e / 2) % m = b ^ (2 * (e / 2)) % m := by
      rw [← Nat.pow_mod, pow_mul, sq]
    rw [power, ih hhalf, hsquare]
    by_cases ho : e % 2 = 1
    · have he : e = 2 * (e / 2) + 1 := by omega
      rw [if_pos ho, Nat.mul_mod_mod]
      conv_rhs => rw [he, pow_succ']
    · have he : e = 2 * (e / 2) := by omega
      rw [if_neg ho]
      conv_rhs => rw [he]

section Pocklington

variable {m d f : ℕ}

/-- Where no prime factor of `f` can be taken out of `m` without losing `d`, all of `f` is in `d`. -/
theorem dvd_of_full (hd : d ∣ m) (hf : f ∣ m) (hm : m ≠ 0)
    (full : ∀ q, q.Prime → q ∣ f → ¬ d ∣ m / q) : f ∣ d := by
  obtain ⟨k, rfl⟩ := hd
  have hc : Nat.Coprime f k := by
    apply Nat.Coprime.symm
    by_contra hn
    obtain ⟨q, hq, hqk, hqf⟩ := Nat.Prime.not_coprime_iff_dvd.mp hn
    obtain ⟨j, rfl⟩ := hqk
    apply full q hq hqf
    rw [Nat.mul_left_comm, Nat.mul_div_cancel_left _ hq.pos]
    exact Nat.dvd_mul_right d j
  exact hc.dvd_of_dvd_mul_right hf

/-- Every prime factor of such a number is above `f`, and so above its square root. -/
theorem prime_of_base {N f : ℕ} (hN : 1 < N) (hf : f ∣ N - 1) (hlt : N < f ^ 2) {b : ZMod N}
    (hb : b ^ (N - 1) = 1) (full : ∀ q, q.Prime → q ∣ f → IsUnit (b ^ ((N - 1) / q) - 1)) :
    N.Prime := by
  by_contra hn
  have hr : (Nat.minFac N).Prime := Nat.minFac_prime (by omega)
  have : Fact (Nat.minFac N).Prime := ⟨hr⟩
  let φ := ZMod.castHom (Nat.minFac_dvd N) (ZMod (Nat.minFac N))
  have hone : φ b ^ (N - 1) = 1 := by rw [← map_pow, hb, map_one]
  have hnot : ∀ q, q.Prime → q ∣ f → ¬ orderOf (φ b) ∣ (N - 1) / q := by
    intro q hq hqf hdvd
    have hu := (full q hq hqf).map φ
    rw [map_sub, map_pow, map_one, orderOf_dvd_iff_pow_eq_one.mp hdvd, sub_self] at hu
    exact not_isUnit_zero hu
  have hfd : f ∣ orderOf (φ b) := dvd_of_full (orderOf_dvd_of_pow_eq_one hone) hf (by omega) hnot
  have hne : φ b ≠ 0 := by
    intro h
    rw [h, zero_pow (by omega)] at hone
    exact zero_ne_one hone
  have hle : f ≤ Nat.minFac N - 1 :=
    Nat.le_of_dvd (Nat.sub_pos_of_lt hr.one_lt) (hfd.trans (ZMod.orderOf_dvd_card_sub_one hne))
  have hsq : Nat.minFac N ^ 2 ≤ N := Nat.minFac_sq_le_self (by omega) hn
  have hlt' : f ^ 2 < Nat.minFac N ^ 2 := Nat.pow_lt_pow_left (by have := hr.pos; omega) (by decide)
  omega

end Pocklington

/-- The test that a base passes for a number of at most 256 bits and some factors of its predecessor. -/
def passes (N b : ℕ) (factors : List ℕ) : Bool :=
  1 < N && N ≤ 2 ^ 256 && (N - 1) % factors.prod == 0 && N < factors.prod ^ 2 &&
    power N 256 b (N - 1) == 1 &&
    factors.all fun q => Nat.gcd (power N 256 b ((N - 1) / q) + (N - 1)) N == 1

theorem prime_of_passes {N : ℕ} (b : ℕ) (factors : List ℕ) (primes : ∀ q ∈ factors, q.Prime)
    (h : passes N b factors = true) : N.Prime := by
  simp only [passes, Bool.and_eq_true, decide_eq_true_eq, beq_iff_eq, List.all_eq_true] at h
  obtain ⟨⟨⟨⟨⟨hN, hbits⟩, hdvd⟩, hlt⟩, hone⟩, hfull⟩ := h
  have hpower : ∀ e, e < N → ((power N 256 b e : ℕ) : ZMod N) = (b : ZMod N) ^ e := by
    intro e he
    rw [power_eq (he.trans_le hbits), ZMod.natCast_mod, Nat.cast_pow]
  apply prime_of_base hN (Nat.dvd_of_mod_eq_zero hdvd) hlt (b := (b : ZMod N))
  · rw [← hpower _ (by omega), hone, Nat.cast_one]
  · intro q hq hqf
    obtain ⟨a, ha, hqa⟩ := (Prime.dvd_prod_iff hq.prime).mp hqf
    obtain rfl := (Nat.prime_dvd_prime_iff_eq hq (primes a ha)).mp hqa
    have hlt : (N - 1) / q < N := (Nat.div_le_self _ _).trans_lt (by omega)
    have hneg : ((N - 1 : ℕ) : ZMod N) = -1 := by
      rw [Nat.cast_sub hN.le, ZMod.natCast_self, Nat.cast_one, zero_sub]
    have hu := (ZMod.isUnit_iff_coprime _ N).mpr (hfull q ha)
    rwa [Nat.cast_add, hpower _ hlt, hneg, ← sub_eq_add_neg] at hu

theorem p_prime : p.Prime := by
  have h17 : Nat.Prime 96557 := by norm_num
  have h23 : Nat.Prime 7240687 := by norm_num
  have h27 : Nat.Prime 107590001 :=
    prime_of_passes 3 [7, 29, 53] (by norm_num) (by decide +kernel)
  have h128 : Nat.Prime 255515944373312847190720520512484175977 :=
    prime_of_passes 3 [96557, 7240687, 107590001] (by simpa using ⟨h17, h23, h27⟩)
      (by decide +kernel)
  have h237 : Nat.Prime 205115282021455665897114700593932402728804164701536103180137503955397371 :=
    prime_of_passes 10 [255515944373312847190720520512484175977] (by simpa using h128)
      (by decide +kernel)
  exact prime_of_passes 3 [205115282021455665897114700593932402728804164701536103180137503955397371]
    (by simpa using h237) (by decide +kernel)

theorem n_prime : n.Prime := by
  have h8 : Nat.Prime 149 := by norm_num
  have h10 : Nat.Prime 631 := by norm_num
  have h30 : Nat.Prime 545358713 := prime_of_passes 5 [28181] (by norm_num) (by decide +kernel)
  have h39 : Nat.Prime 297159362677 := prime_of_passes 2 [1627771] (by norm_num) (by decide +kernel)
  have h95 : Nat.Prime 29047611873442575647497758179 :=
    prime_of_passes 2 [545358713, 297159362677] (by simpa using ⟨h30, h39⟩) (by decide +kernel)
  have h109 : Nat.Prime 341948486974166000522343609283189 :=
    prime_of_passes 2 [29047611873442575647497758179] (by simpa using h95) (by decide +kernel)
  exact prime_of_passes 7 [2, 2, 2, 2, 2, 2, 3, 149, 631, 341948486974166000522343609283189]
    (by simpa using ⟨Nat.prime_two, Nat.prime_three, h8, h10, h109⟩) (by decide +kernel)

end Countersign.Curve
