import Mathlib.Tactic.Common
import Mathlib.Data.List.Basic
import Countersign.Bytes

/-!
# Byte strings as numbers and in order

A byte string of known width and the number it writes high byte first determine each other, and byte
strings are compared as lists are.
-/

set_option autoImplicit false

namespace Countersign

namespace Bytes

theorem toNatBE_ofNatBE {width n : ℕ} (h : n < Nat.pow 256 width) : toNatBE (ofNatBE width n) = n := by
  rw [toNatBE, ofNatBE, List.reverse_reverse, toNatLE_ofNatLE, Nat.mod_eq_of_lt h]

theorem ofNatBE_toNatBE (b : Bytes) : ofNatBE b.length (toNatBE b) = b := by
  have h := ofNatLE_toNatLE b.reverse
  rw [List.length_reverse] at h
  rw [ofNatBE, toNatBE, h, List.reverse_reverse]

theorem toNatBE_lt (b : Bytes) : toNatBE b < Nat.pow 256 b.length := by
  have h := toNatLE_ofNatLE b.reverse.length (toNatLE b.reverse)
  rw [ofNatLE_toNatLE, List.length_reverse] at h
  rw [toNatBE, h]
  exact Nat.mod_lt _ (Nat.pow_pos (by decide))

theorem le_iff (a b : Bytes) : le a b = true ↔ a ≤ b := by
  induction a generalizing b with
  | nil => simp [le]
  | cons x r ih =>
    cases b with
    | nil => simp [le]
    | cons y s => simp [le, ih, List.cons_le_cons_iff]

end Bytes

end Countersign
