import Mathlib.AlgebraicGeometry.EllipticCurve.Jacobian.Point
import Countersign.Proofs.Curve.Primality

/-!
# Jacobian coordinates stand for points

The points of secp256k1 are those of a Weierstrass curve over the field of `p` elements, and form a
group. Triples of numbers stand for such points, and doubling, adding and multiplying triples does to
the points what the names say.
-/

set_option autoImplicit false

namespace Countersign.Curve

open WeierstrassCurve
open scoped WeierstrassCurve.Jacobian

instance : Fact p.Prime := ⟨p_prime⟩

abbrev Coordinate := ZMod p

def secp256k1 : WeierstrassCurve Coordinate := ⟨0, 0, 0, 0, 7⟩

abbrev Group := secp256k1.toAffine.Point

theorem p_pos : 0 < p := p_prime.pos

theorem cast_sub_mod (k : ℕ) : ((p - k % p : ℕ) : Coordinate) = -k := by
  rw [Nat.cast_sub (Nat.mod_lt k p_pos).le, ZMod.natCast_self, ZMod.natCast_mod, zero_sub]

theorem cast_eq_zero_iff {k : ℕ} (h : k < p) : (k : Coordinate) = 0 ↔ k = 0 := by
  rw [ZMod.natCast_eq_zero_iff]
  constructor
  · intro hd
    exact Nat.eq_zero_of_dvd_of_lt hd h
  · rintro rfl
    exact Nat.dvd_zero p

namespace Jacobian

def triple (a : Jacobian) : Fin 3 → Coordinate := ![a.x, a.y, a.z]

/-- The triple is one of those that the point has. -/
structure Stands (a : Jacobian) (P : Group) : Prop where
  reduced : a.z < p
  nonsingular : secp256k1.toJacobian.Nonsingular a.triple
  point : WeierstrassCurve.Jacobian.Point.toAffine secp256k1 a.triple = P

variable {a b : Jacobian} {P Q : Group}

section Double

variable (a : Jacobian)

theorem double_x : ((double a).x : Coordinate) = 9 * a.x ^ 4 - 8 * a.x * a.y ^ 2 := by
  simp only [double, ZMod.natCast_mod, Nat.cast_add, Nat.cast_mul, cast_sub_mod]
  push_cast
  ring

theorem double_y : ((double a).y : Coordinate) =
    3 * a.x ^ 2 * (4 * a.x * a.y ^ 2 - (double a).x) - 8 * a.y ^ 4 := by
  simp only [double, ZMod.natCast_mod, Nat.cast_add, Nat.cast_mul, cast_sub_mod]
  push_cast
  ring

theorem double_z : ((double a).z : Coordinate) = 2 * a.y * a.z := by
  simp only [double, ZMod.natCast_mod]
  push_cast
  ring

theorem double_triple : (double a).triple = secp256k1.toJacobian.dblXYZ a.triple := by
  have hneg : secp256k1.toJacobian.negY a.triple = -a.y := by
    simp [Jacobian.negY, secp256k1, triple]
  have hU : secp256k1.toJacobian.dblU a.triple = -3 * (a.x : Coordinate) ^ 2 := by
    simp [Jacobian.dblU_eq, secp256k1, triple]
  have hX : ((double a).x : Coordinate) = secp256k1.toJacobian.dblX a.triple := by
    rw [double_x, Jacobian.dblX, hU, hneg]
    simp [secp256k1, triple]
    ring
  have hY : ((double a).y : Coordinate) = secp256k1.toJacobian.dblY a.triple := by
    rw [double_y, hX, Jacobian.dblY, Jacobian.negY, Jacobian.negDblY, hU, hneg]
    simp [secp256k1, triple]
    ring
  have hZ : ((double a).z : Coordinate) = secp256k1.toJacobian.dblZ a.triple := by
    rw [double_z, Jacobian.dblZ, hneg]
    simp [triple]
    ring
  rw [triple, hX, hY, hZ, Jacobian.dblXYZ]

end Double

theorem double_reduced (a : Jacobian) : (double a).z < p := Nat.mod_lt _ p_pos

/-- A triple stands for whatever point the same triple of field elements has. -/
theorem Stands.of_triple {T : Fin 3 → Coordinate} (reduced : a.z < p) (ht : a.triple = T)
    (nonsingular : secp256k1.toJacobian.Nonsingular T)
    (point : Jacobian.Point.toAffine secp256k1.toJacobian T = P) : a.Stands P := by
  subst ht
  exact ⟨reduced, nonsingular, point⟩

theorem Stands.double (h : a.Stands P) : a.double.Stands (P + P) := by
  have hadd : a.double.triple = secp256k1.toJacobian.add a.triple a.triple := by
    rw [double_triple, Jacobian.add_self]
  apply Stands.of_triple (double_reduced a) hadd
  · exact Jacobian.nonsingular_add h.nonsingular h.nonsingular
  · rw [Jacobian.Point.toAffine_add h.nonsingular h.nonsingular, h.point]

theorem stands_infinity : infinity.Stands 0 := by
  have ht : infinity.triple = ![1, 1, 0] := by simp [infinity, triple]
  apply Stands.of_triple p_pos ht
  · exact Jacobian.nonsingular_zero
  · exact Jacobian.Point.toAffine_zero

theorem Stands.z_eq_zero_iff (h : a.Stands P) : a.z = 0 ↔ a.triple 2 = 0 :=
  (cast_eq_zero_iff h.reduced).symm

theorem Stands.of_z_eq_zero (h : a.Stands P) (hz : a.z = 0) : P = 0 := by
  rw [← h.point]
  exact Jacobian.Point.toAffine_of_Z_eq_zero (h.z_eq_zero_iff.mp hz)

section Add

variable (a b : Jacobian)

def gapX : ℕ := (b.x * (a.z * a.z % p) + (p - a.x * (b.z * b.z % p) % p)) % p

def gapY : ℕ :=
  (b.y * a.z % p * (a.z * a.z % p) + (p - a.y * b.z % p * (b.z * b.z % p) % p)) % p

def chord : Jacobian :=
  let h := gapX a b
  let r := gapY a b
  let hhh := h * (h * h % p) % p
  let v := a.x * (b.z * b.z % p) % p * (h * h % p) % p
  let x := (r * r + (p - hhh) + 2 * (p - v)) % p
  ⟨x, (r * (v + (p - x)) + a.y * b.z % p * (b.z * b.z % p) % p * (p - hhh)) % p,
    h * a.z % p * b.z % p⟩

theorem add_eq : a.add b =
    if a.z = 0 then b else if b.z = 0 then a
    else if gapX a b = 0 then if gapY a b = 0 then a.double else infinity
    else chord a b := rfl

theorem cast_gapX : (gapX a b : Coordinate) = b.x * a.z ^ 2 - a.x * b.z ^ 2 := by
  rw [gapX, ZMod.natCast_mod, Nat.cast_add, cast_sub_mod]
  simp only [Nat.cast_mul, ZMod.natCast_mod]
  ring

theorem cast_gapY : (gapY a b : Coordinate) = b.y * a.z ^ 3 - a.y * b.z ^ 3 := by
  rw [gapY, ZMod.natCast_mod, Nat.cast_add, cast_sub_mod]
  simp only [Nat.cast_mul, ZMod.natCast_mod]
  ring

theorem gapX_eq_zero_iff :
    gapX a b = 0 ↔ a.triple 0 * b.triple 2 ^ 2 = b.triple 0 * a.triple 2 ^ 2 := by
  rw [← cast_eq_zero_iff (show gapX a b < p from Nat.mod_lt _ p_pos), cast_gapX, sub_eq_zero]
  exact eq_comm

theorem gapY_eq_zero_iff :
    gapY a b = 0 ↔ a.triple 1 * b.triple 2 ^ 3 = b.triple 1 * a.triple 2 ^ 3 := by
  rw [← cast_eq_zero_iff (show gapY a b < p from Nat.mod_lt _ p_pos), cast_gapY, sub_eq_zero]
  exact eq_comm

theorem chord_x : ((chord a b).x : Coordinate) =
    gapY a b ^ 2 - gapX a b ^ 3 - 2 * (a.x * b.z ^ 2 * gapX a b ^ 2) := by
  simp only [chord, ZMod.natCast_mod, Nat.cast_add, Nat.cast_mul, cast_sub_mod]
  push_cast
  ring

theorem chord_y : ((chord a b).y : Coordinate) =
    gapY a b * (a.x * b.z ^ 2 * gapX a b ^ 2 - (chord a b).x) -
      a.y * b.z ^ 3 * gapX a b ^ 3 := by
  simp only [chord, ZMod.natCast_mod, Nat.cast_add, Nat.cast_mul, cast_sub_mod]
  push_cast
  ring

theorem chord_z : ((chord a b).z : Coordinate) = gapX a b * a.z * b.z := by
  simp only [chord, ZMod.natCast_mod, Nat.cast_mul]

/-- Up to a common factor the chord's end is the sum of two points that are not the same. -/
theorem chord_triple (ha : secp256k1.toJacobian.Equation a.triple)
    (hb : secp256k1.toJacobian.Equation b.triple) :
    (chord a b).triple =
      (-(a.z * b.z : Coordinate)) • secp256k1.toJacobian.addXYZ a.triple b.triple := by
  have hx : ((chord a b).x : Coordinate) =
      (a.z * b.z : Coordinate) ^ 2 * secp256k1.toJacobian.addX a.triple b.triple := by
    have hX := Jacobian.addX_eq' ha hb
    rw [chord_x, cast_gapX, cast_gapY]
    simp only [triple, secp256k1, Jacobian.addZ, Matrix.cons_val] at hX ⊢
    linear_combination -hX
  have hy : ((chord a b).y : Coordinate) =
      -(a.z * b.z : Coordinate) ^ 3 * secp256k1.toJacobian.addY a.triple b.triple := by
    have hY : secp256k1.toJacobian.negAddY a.triple b.triple * _ = _ :=
      Jacobian.negAddY_eq' a.triple b.triple
    have hneg : secp256k1.toJacobian.addY a.triple b.triple =
        -secp256k1.toJacobian.negAddY a.triple b.triple := by
      simp [Jacobian.addY, Jacobian.negY, secp256k1]
    rw [chord_y, hx, hneg, cast_gapX, cast_gapY]
    simp only [triple, Jacobian.addZ, Matrix.cons_val] at hY ⊢
    linear_combination -hY
  have hz : ((chord a b).z : Coordinate) =
      -(a.z * b.z : Coordinate) * Jacobian.addZ a.triple b.triple := by
    rw [chord_z, cast_gapX]
    simp only [triple, Jacobian.addZ, Matrix.cons_val]
    ring
  rw [Jacobian.smul_fin3, Jacobian.addXYZ_X, Jacobian.addXYZ_Y, Jacobian.addXYZ_Z, triple, hx, hy, hz]
  ring_nf

end Add

theorem Stands.add (ha : a.Stands P) (hb : b.Stands Q) : (a.add b).Stands (P + Q) := by
  have hsum := Jacobian.Point.toAffine_add ha.nonsingular hb.nonsingular
  have hns := Jacobian.nonsingular_add ha.nonsingular hb.nonsingular
  rw [ha.point, hb.point] at hsum
  rw [add_eq]
  by_cases hza : a.z = 0
  · rw [if_pos hza, ha.of_z_eq_zero hza, zero_add]
    exact hb
  by_cases hzb : b.z = 0
  · rw [if_neg hza, if_pos hzb, hb.of_z_eq_zero hzb, add_zero]
    exact ha
  have hta : a.triple 2 ≠ 0 := fun h => hza (ha.z_eq_zero_iff.mpr h)
  have htb : b.triple 2 ≠ 0 := fun h => hzb (hb.z_eq_zero_iff.mpr h)
  rw [if_neg hza, if_neg hzb]
  by_cases hx : gapX a b = 0
  · have hX := (gapX_eq_zero_iff a b).mp hx
    rw [if_pos hx]
    by_cases hy : gapY a b = 0
    · have hequiv := Jacobian.equiv_of_X_eq_of_Y_eq hta htb hX ((gapY_eq_zero_iff a b).mp hy)
      have hPQ : P = Q := by
        rw [← ha.point, ← hb.point]
        exact Jacobian.Point.toAffine_of_equiv hequiv
      rw [if_pos hy, ← hPQ]
      exact ha.double
    · have hequiv := Jacobian.not_equiv_of_Y_ne fun h => hy ((gapY_eq_zero_iff a b).mpr h)
      have hzero : P + Q = 0 := by
        rw [← hsum, Jacobian.add_of_not_equiv hequiv]
        apply Jacobian.Point.toAffine_of_Z_eq_zero
        rw [Jacobian.addXYZ_Z, Jacobian.addZ, hX, sub_self]
      rw [if_neg hy, hzero]
      exact stands_infinity
  · have hequiv := Jacobian.not_equiv_of_X_ne fun h => hx ((gapX_eq_zero_iff a b).mpr h)
    have hunit : IsUnit (-(a.z * b.z : Coordinate)) := (mul_ne_zero hta htb).isUnit.neg
    rw [Jacobian.add_of_not_equiv hequiv] at hsum hns
    rw [if_neg hx]
    have htriple := chord_triple a b ha.nonsingular.left hb.nonsingular.left
    apply Stands.of_triple (Nat.mod_lt _ p_pos) htriple
    · exact (Jacobian.nonsingular_smul _ hunit).mpr hns
    · rw [Jacobian.Point.toAffine_smul _ hunit, hsum]

theorem Stands.mul {bits k : ℕ} (h : a.Stands P) (hk : k < 2 ^ bits) :
    (mul bits k a).Stands (k • P) := by
  induction bits generalizing k a P with
  | zero =>
    have hk0 : k = 0 := by simpa using hk
    rw [hk0, zero_nsmul]
    exact stands_infinity
  | succ bits ih =>
    have hhalf : k / 2 < 2 ^ bits := by
      rw [pow_succ] at hk
      omega
    have hr := ih h.double hhalf
    have hdouble : (k / 2) • (P + P) = (2 * (k / 2)) • P := by
      rw [← two_nsmul, ← mul_nsmul]
    rw [hdouble] at hr
    rw [Jacobian.mul]
    by_cases ho : k % 2 = 1
    · have hsum : P + (2 * (k / 2)) • P = k • P := by
        rw [← succ_nsmul']
        congr 1
        omega
      rw [if_pos ho, ← hsum]
      exact h.add hr
    · have he : 2 * (k / 2) = k := by omega
      rw [he] at hr
      rw [if_neg ho]
      exact hr

end Jacobian

theorem cast_inverse {k : ℕ} (h : (k : Coordinate) ≠ 0) :
    (inverse k : Coordinate) = (k : Coordinate)⁻¹ := by
  have hbits : p - 2 < 2 ^ 256 := by decide
  have hone : (k : Coordinate) ^ (p - 2) * k = 1 := by
    rw [← pow_succ]
    exact ZMod.pow_card_sub_one_eq_one h
  rw [inverse, power_eq hbits, ZMod.natCast_mod, Nat.cast_pow]
  exact eq_inv_of_mul_eq_one_left hone

inductive Point.Denotes : Point → Group → Prop where
  | infinity : Denotes .infinity 0
  | affine {x y : ℕ} (hx : x < p) (hy : y < p) (h : secp256k1.toAffine.Nonsingular x y) :
    Denotes (.affine x y) (.some _ _ h)

namespace Point

variable {a b : Point} {P Q : Group}

theorem denotes_affine {x y : ℕ} {X Y : Coordinate} {h : secp256k1.toAffine.Nonsingular X Y}
    (hx : x < p) (hy : y < p) (hX : (x : Coordinate) = X) (hY : (y : Coordinate) = Y) :
    Denotes (.affine x y) (.some _ _ h) := by
  subst hX hY
  exact .affine hx hy h

theorem Denotes.ofPoint (h : a.Denotes P) : (Jacobian.ofPoint a).Stands P := by
  cases h with
  | infinity => exact Jacobian.stands_infinity
  | @affine x y hx hy h =>
    have ht : (Jacobian.ofPoint (.affine x y)).triple = ![(x : Coordinate), y, 1] := by
      simp [Jacobian.ofPoint, Jacobian.triple]
    have hns : secp256k1.toJacobian.Nonsingular ![(x : Coordinate), y, 1] :=
      (WeierstrassCurve.Jacobian.nonsingular_some _ _).mpr h
    apply Jacobian.Stands.of_triple p_prime.one_lt ht hns
    exact WeierstrassCurve.Jacobian.Point.toAffine_some hns

end Point

open Point in
theorem Jacobian.Stands.toPoint {a : Jacobian} {P : Group} (h : a.Stands P) : a.toPoint.Denotes P := by
  unfold Jacobian.toPoint
  by_cases hz : a.z = 0
  · rw [if_pos hz, h.of_z_eq_zero hz]
    exact .infinity
  · have ht : a.triple 2 ≠ 0 := fun ht => hz (h.z_eq_zero_iff.mpr ht)
    have hi := cast_inverse (show (a.z : Coordinate) ≠ 0 from ht)
    rw [if_neg hz, ← h.point, WeierstrassCurve.Jacobian.Point.toAffine_of_Z_ne_zero h.nonsingular ht]
    apply denotes_affine (Nat.mod_lt _ p_pos) (Nat.mod_lt _ p_pos)
    · simp only [ZMod.natCast_mod, Nat.cast_mul, hi]
      simp [Jacobian.triple, div_eq_mul_inv, sq]
    · simp only [ZMod.natCast_mod, Nat.cast_mul, hi]
      simp [Jacobian.triple, div_eq_mul_inv, pow_three, mul_assoc]

end Countersign.Curve
