import Countersign.Curve.Key
import Countersign.Proofs.Bytes
import Countersign.Proofs.Curve.Points

/-!
# Which points keys are

The generator has order `n`. The public key of a secret names the multiple of the generator by it up to
a sign, and the point that stands for an x-only key is the one of even y.
-/

set_option autoImplicit false

namespace Countersign.Curve

open WeierstrassCurve

theorem discriminant_ne_zero : secp256k1.Δ ≠ 0 := by
  have h : secp256k1.Δ = -((21168 : ℕ) : Coordinate) := by
    simp only [WeierstrassCurve.Δ, WeierstrassCurve.b₂, WeierstrassCurve.b₄, WeierstrassCurve.b₆,
      WeierstrassCurve.b₈, secp256k1]
    push_cast
    ring
  rw [h, neg_ne_zero, ne_eq, cast_eq_zero_iff (by decide)]
  decide

theorem cast_sq_of_onCurve {x y : ℕ} (h : onCurve x y = true) :
    (y : Coordinate) ^ 2 = (x : Coordinate) ^ 3 + 7 := by
  rw [onCurve, beq_iff_eq] at h
  have hc := congrArg (Nat.cast (R := Coordinate)) h
  simp only [ZMod.natCast_mod] at hc
  push_cast at hc
  linear_combination hc

theorem nonsingular_of_onCurve {x y : ℕ} (h : onCurve x y = true) :
    secp256k1.toAffine.Nonsingular x y := by
  apply (Affine.equation_iff_nonsingular_of_Δ_ne_zero discriminant_ne_zero).mp
  have hc := cast_sq_of_onCurve h
  rw [Affine.equation_iff]
  simp only [secp256k1]
  linear_combination hc

def generator : Group :=
  .some _ _ (nonsingular_of_onCurve
    (x := 0x79be667ef9dcbbac55a06295ce870b07029bfcdb2dce28d959f2815b16f81798)
    (y := 0x483ada7726a3c4655da4fbfc0e1108a8fd17b448a68554199c47d08ffb10d4b8) (by decide +kernel))

theorem p_lt_pow : p < Nat.pow 256 32 := by decide

theorem n_lt_pow : n < 2 ^ 256 := by decide

theorem g_denotes : g.Denotes generator := .affine (by decide) (by decide) _

theorem mulGenerator_denotes {k : ℕ} (hk : k < 2 ^ 256) :
    (Point.mulGenerator k).Denotes (k • generator) :=
  (g_denotes.ofPoint.mul hk).toPoint

theorem combine_denotes {a : Point} {P : Group} (h : a.Denotes P) {j k : ℕ} (hj : j < 2 ^ 256)
    (hk : k < 2 ^ 256) : (Point.combine j k a).Denotes (j • generator + k • P) :=
  ((g_denotes.ofPoint.mul hj).add (h.ofPoint.mul hk)).toPoint

theorem n_nsmul_generator : n • generator = 0 := by
  have h := g_denotes.ofPoint.mul n_lt_pow
  exact h.of_z_eq_zero (by decide +kernel)

theorem addOrderOf_generator : addOrderOf generator = n := by
  have : Fact n.Prime := ⟨n_prime⟩
  exact addOrderOf_eq_prime n_nsmul_generator (Affine.Point.some_ne_zero _)

theorem nsmul_mod_n (k : ℕ) : (k % n) • generator = k • generator := by
  rw [← addOrderOf_generator]
  exact mod_addOrderOf_nsmul generator k

theorem nsmul_generator_ne_zero {k : ℕ} (hpos : 0 < k) (hlt : k < n) : k • generator ≠ 0 := by
  intro h
  have hd := addOrderOf_dvd_of_nsmul_eq_zero h
  rw [addOrderOf_generator] at hd
  exact absurd (Nat.le_of_dvd hpos hd) (Nat.not_le.mpr hlt)

theorem sub_nsmul_generator {k : ℕ} (hle : k ≤ n) : (n - k) • generator = -(k • generator) := by
  rw [eq_neg_iff_add_eq_zero, ← add_nsmul, Nat.sub_add_cancel hle, n_nsmul_generator]

theorem cast_p_sub {y : ℕ} (hy : y ≤ p) : ((p - y : ℕ) : Coordinate) = -y := by
  rw [Nat.cast_sub hy, ZMod.natCast_self, zero_sub]

theorem eq_of_cast_eq {a b : ℕ} (ha : a < p) (hb : b < p) (h : (a : Coordinate) = b) : a = b := by
  rw [ZMod.natCast_eq_natCast_iff', Nat.mod_eq_of_lt ha, Nat.mod_eq_of_lt hb] at h
  exact h

theorem liftX_spec {x y : ℕ} (h : liftX x = some y) :
    x < p ∧ y < p ∧ y % 2 = 0 ∧ (y : Coordinate) ^ 2 = (x : Coordinate) ^ 3 + 7 := by
  unfold liftX at h
  by_cases hx : x < p
  swap
  · simp [hx] at h
  rw [if_pos hx] at h
  generalize hw : power p 256 ((x * x * x + 7) % p) ((p + 1) / 4) = w at h
  have hlt : w < p := by
    rw [← hw, power_eq (by decide)]
    exact Nat.mod_lt _ p_pos
  have hodd : p % 2 = 1 := by decide
  by_cases hc : onCurve x w = true
  swap
  · simp [hc] at h
  have hsq := cast_sq_of_onCurve hc
  simp only [hc, if_true, Option.some.injEq] at h
  by_cases he : w % 2 = 0
  · rw [if_pos he] at h
    subst h
    exact ⟨hx, hlt, he, hsq⟩
  · rw [if_neg he] at h
    subst h
    refine ⟨hx, by omega, by omega, ?_⟩
    rw [cast_p_sub hlt.le, neg_sq]
    exact hsq

namespace Point.Denotes

variable {x y : ℕ} {P : Group}

theorem cast_sq (h : (Point.affine x y).Denotes P) :
    (y : Coordinate) ^ 2 = (x : Coordinate) ^ 3 + 7 := by
  cases h with
  | affine hx hy h =>
    have he := (Affine.equation_iff _ _).mp h.left
    simp only [secp256k1] at he
    linear_combination he

theorem y_lt (h : (Point.affine x y).Denotes P) : y < p := by
  cases h with
  | affine hx hy h => exact hy

theorem x_lt (h : (Point.affine x y).Denotes P) : x < p := by
  cases h with
  | affine hx hy h => exact hx

theorem neg (h : (Point.affine x y).Denotes P) (hpos : 0 < y) :
    (Point.affine x (p - y)).Denotes (-P) := by
  cases h with
  | affine hx hy h =>
    rw [Affine.Point.neg_some]
    apply denotes_affine hx (by omega) rfl
    rw [cast_p_sub hy.le]
    simp [Affine.negY, secp256k1]

/-- Of the two points above an x coordinate the lift takes the one of even y. -/
theorem lift (h : (Point.affine x y).Denotes P) {e : ℕ} (hl : liftX x = some e) :
    (Point.affine x e).Denotes (if y % 2 = 0 then P else -P) := by
  obtain ⟨-, he, heven, hsq⟩ := liftX_spec hl
  have hy := h.y_lt
  have hodd : p % 2 = 1 := by decide
  rcases sq_eq_sq_iff_eq_or_eq_neg.mp (hsq.trans h.cast_sq.symm) with hc | hc
  · obtain rfl := eq_of_cast_eq he hy hc
    rw [if_pos heven]
    exact h
  · rcases Nat.eq_zero_or_pos y with rfl | hpos
    · rw [Nat.cast_zero, neg_zero, cast_eq_zero_iff he] at hc
      rw [hc, if_pos rfl]
      exact h
    · have hneg : e = p - y := by
        apply eq_of_cast_eq he (by omega)
        rw [hc, cast_p_sub hy.le]
      rw [if_neg (by omega), hneg]
      exact h.neg hpos

theorem denotes_affine_iff :
    (Point.affine x y).Denotes P ↔
      x < p ∧ y < p ∧ ∃ h : secp256k1.toAffine.Nonsingular x y, P = .some _ _ h := by
  constructor
  · intro h
    cases h with
    | affine hx hy h => exact ⟨hx, hy, h, rfl⟩
  · intro h
    obtain ⟨hx, hy, h, rfl⟩ := h
    exact .affine hx hy h

theorem exists_affine {a : Point} (h : a.Denotes P) (hne : P ≠ 0) : ∃ x y, a = .affine x y := by
  cases h with
  | infinity => exact absurd rfl hne
  | affine hx hy h => exact ⟨_, _, rfl⟩

theorem unique {a : Point} (h : (Point.affine x y).Denotes P) (ha : a.Denotes P) :
    a = .affine x y := by
  obtain ⟨hx, hy, hn, rfl⟩ := denotes_affine_iff.mp h
  obtain ⟨x', y', rfl⟩ := ha.exists_affine (Affine.Point.some_ne_zero hn)
  obtain ⟨hx', hy', hn', he⟩ := denotes_affine_iff.mp ha
  obtain ⟨hX, hY⟩ := Affine.Point.some.inj he
  rw [eq_of_cast_eq hx hx' hX, eq_of_cast_eq hy hy' hY]

end Point.Denotes

end Countersign.Curve

namespace Countersign

open Curve

theorem XOnlyKey.liftX_x (k : XOnlyKey) : liftX k.x = some k.y := by
  have h := k.valid
  rw [IsXOnly, Bool.and_eq_true] at h
  obtain ⟨y, hy⟩ := Option.isSome_iff_exists.mp h.2
  rw [XOnlyKey.y, XOnlyKey.x, hy, Option.getD_some]

theorem PublicKey.point_denotes {a : Point} {P : Group} (h : a.Denotes P) {key : PublicKey}
    (hk : PublicKey.ofPoint? a = some key) :
    key.xOnly.point.Denotes (if key.odd then -P else P) := by
  cases a with
  | infinity => simp [PublicKey.ofPoint?] at hk
  | affine x y =>
    rw [PublicKey.ofPoint?, Option.map_eq_some_iff] at hk
    obtain ⟨k, hb, rfl⟩ := hk
    have hx : k.x = x := by
      rw [XOnlyKey.x, XOnlyKey.ofBytes?_eq_some hb]
      exact Bytes.toNatBE_ofNatBE (h.x_lt.trans p_lt_pow)
    have hl := k.liftX_x
    rw [hx] at hl
    have hd := h.lift hl
    rw [XOnlyKey.point, hx]
    by_cases he : y % 2 = 0
    · simpa [he] using hd
    · simpa [Nat.mod_two_ne_zero.mp he] using hd

def KeyPair.scalar (pair : KeyPair) : ℕ :=
  if pair.publicKey.odd then n - pair.secret.value else pair.secret.value

theorem KeyPair.point_denotes (pair : KeyPair) :
    pair.publicKey.xOnly.point.Denotes (pair.scalar • generator) := by
  have hlt := pair.secret.lt
  have h := PublicKey.point_denotes
    (mulGenerator_denotes (hlt.trans n_lt_pow)) pair.derives
  rw [KeyPair.scalar]
  by_cases ho : pair.publicKey.odd = true
  · rw [if_pos ho] at h ⊢
    rw [sub_nsmul_generator hlt.le]
    exact h
  · rw [if_neg ho] at h ⊢
    exact h

end Countersign
