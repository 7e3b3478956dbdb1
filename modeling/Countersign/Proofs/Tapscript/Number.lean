import Mathlib.Data.Nat.Digits.Lemmas
import Countersign.Bitcoin.Script

/-!
# Numbers on the stack

A stack element is read as a number low byte first, with the top bit of the last byte for its sign. A
number is written in the fewest bytes that read back as it, and zero is the empty string. What a script
pushes for a number is its written form.
-/

set_option autoImplicit false

namespace Countersign.Tapscript

def digits (n : ℕ) : Bytes := (Nat.digits 256 n).map UInt8.ofNat

/-- A magnitude whose top bit is in use takes one more byte for the sign. -/
def writeNumber (i : ℤ) : Bytes :=
  let d := digits i.natAbs
  match d.getLast? with
  | none => []
  | some top =>
    if top < 0x80 then if i < 0 then d.dropLast ++ [top + 0x80] else d
    else d ++ [if i < 0 then 0x80 else 0]

def readNumber (width : ℕ) (b : Bytes) : Option ℤ :=
  if width < b.length then none
  else
    match b.getLast? with
    | none => some 0
    | some top =>
      if top < 0x80 then some b.toNatLE
      else some (- (Bytes.toNatLE (b.dropLast ++ [top - 0x80]) : ℤ))

/-- Neither zero nor the negative zero, at any length. -/
def isTrue (b : Bytes) : Bool := readNumber b.length b != some 0

theorem digits_zero : digits 0 = [] := by simp [digits]

theorem digits_cons {n : ℕ} (h : 0 < n) : digits n = UInt8.ofNat n :: digits (n / 256) := by
  rw [digits, Nat.digits_def' (by decide) h, List.map_cons]
  congr 1
  apply UInt8.toNat_inj.mp
  simp

theorem digits_eq_nil_iff {n : ℕ} : digits n = [] ↔ n = 0 := by
  simp [digits, Nat.digits_eq_nil_iff_eq_zero]

theorem toNatLE_digits (n : ℕ) : Bytes.toNatLE (digits n) = n := by
  induction n using Nat.strong_induction_on with
  | _ n ih =>
    rcases Nat.eq_zero_or_pos n with rfl | h
    · rw [digits_zero, Bytes.toNatLE]
    · rw [digits_cons h, Bytes.toNatLE, ih (n / 256) (Nat.div_lt_self h (by decide)),
        UInt8.toNat_ofNat']
      omega

theorem digits_length_le {width n : ℕ} (h : n < 256 ^ width) : (digits n).length ≤ width := by
  rw [digits, List.length_map]
  exact (Nat.digits_length_le_iff (by decide) n).mpr h

theorem toNatLE_append (a b : Bytes) :
    Bytes.toNatLE (a ++ b) = Bytes.toNatLE a + 256 ^ a.length * Bytes.toNatLE b := by
  induction a with
  | nil => simp [Bytes.toNatLE]
  | cons x r ih =>
    simp only [List.cons_append, Bytes.toNatLE, ih, List.length_cons, pow_succ]
    ring

theorem digits_getLast_ne_zero {n : ℕ} {top : UInt8} (h : (digits n).getLast? = some top) :
    top ≠ 0 := by
  rw [digits, List.getLast?_map] at h
  obtain ⟨a, ha, rfl⟩ := Option.map_eq_some_iff.mp h
  have hm := List.mem_of_getLast? ha
  have hlt := Nat.digits_lt_base (by decide) hm
  have hne : a ≠ 0 := by
    have hn : n ≠ 0 := by
      rintro rfl
      simp at hm
    have hl := Nat.getLast_digit_ne_zero 256 hn
    rw [List.getLast?_eq_some_getLast (List.ne_nil_of_mem hm), Option.some.injEq] at ha
    rwa [ha] at hl
  intro hz
  have ht := congrArg UInt8.toNat hz
  rw [UInt8.toNat_ofNat', Nat.mod_eq_of_lt hlt] at ht
  exact hne ht

theorem digits_bound {width n : ℕ} (h : 2 * n < 256 ^ width) {top : UInt8}
    (ht : (digits n).getLast? = some top) :
    (digits n).length < width ∨ (digits n).length = width ∧ top < 0x80 := by
  obtain ⟨low, hd⟩ := List.getLast?_eq_some_iff.mp ht
  have hn : n = Bytes.toNatLE low + 256 ^ low.length * top.toNat := by
    rw [← toNatLE_digits n, hd, toNatLE_append]
    simp [Bytes.toNatLE]
  have hpos : 0 < top.toNat := by
    apply Nat.pos_of_ne_zero
    intro hz
    exact digits_getLast_ne_zero ht (UInt8.toNat_inj.mp hz)
  have hlow : 256 ^ low.length ≤ n := by nlinarith [Nat.zero_le (Bytes.toNatLE low)]
  have hlen : low.length < width := by
    apply (Nat.pow_lt_pow_iff_right (show 1 < 256 by decide)).mp
    omega
  rw [hd, List.length_append, List.length_singleton]
  rcases Nat.lt_or_eq_of_le (show low.length + 1 ≤ width from hlen) with hw | hw
  · exact Or.inl hw
  · refine Or.inr ⟨hw, UInt8.lt_iff_toNat_lt.mpr ?_⟩
    rw [← hw, pow_succ] at h
    show top.toNat < 128
    by_contra hge
    have hge := Nat.le_of_not_lt hge
    nlinarith [Nat.zero_le (Bytes.toNatLE low), Nat.mul_le_mul_left (256 ^ low.length) hge]

theorem writeNumber_zero : writeNumber 0 = [] := by simp [writeNumber, digits_zero]

theorem writeNumber_natCast (n : ℕ) :
    writeNumber n = if (digits n).getLast?.getD 0 < 0x80 then digits n else digits n ++ [0] := by
  simp only [writeNumber, Int.natAbs_natCast]
  cases h : (digits n).getLast? with
  | none => simp [List.getLast?_eq_none_iff.mp h]
  | some top => simp [show ¬ (n : ℤ) < 0 by omega]

theorem writeNumber_length_le {width n : ℕ} (h : n < 256 ^ width) :
    (writeNumber n).length ≤ width + 1 := by
  have hd := digits_length_le h
  rw [writeNumber_natCast]
  split_ifs
  · omega
  · rw [List.length_append, List.length_singleton]
    omega

theorem readNumber_writeNumber {width n : ℕ} (h : 2 * n < 256 ^ width) :
    readNumber width (writeNumber n) = some (n : ℤ) := by
  rw [writeNumber_natCast]
  cases ht : (digits n).getLast? with
  | none =>
    have hn : n = 0 := digits_eq_nil_iff.mp (List.getLast?_eq_none_iff.mp ht)
    subst hn
    simp [digits_zero, readNumber]
  | some top =>
    rcases digits_bound h ht with hlt | ⟨hle, hfree⟩
    · by_cases hfree : top < 0x80
      · simp [readNumber, hfree, ht, toNatLE_digits, Nat.not_lt.mpr hlt.le]
      · simp [readNumber, hfree, hlt, toNatLE_append, Bytes.toNatLE, toNatLE_digits]
    · simp [readNumber, hfree, ht, toNatLE_digits, hle]

/-- A string is as true as the number it is read as, in whatever width it is read. -/
theorem isTrue_of_readNumber {width : ℕ} {b : Bytes} {i : ℤ} (h : readNumber width b = some i) :
    isTrue b = (i != 0) := by
  have hl : ¬ width < b.length := by
    intro hlt
    simp [readNumber, hlt] at h
  have hr : readNumber b.length b = some i := by
    rw [← h]
    simp [readNumber, hl]
  rw [isTrue, hr]
  rfl

theorem isTrue_writeNumber {width n : ℕ} (h : 2 * n < 256 ^ width) :
    isTrue (writeNumber n) = true ↔ n ≠ 0 := by
  rw [isTrue_of_readNumber (readNumber_writeNumber h)]
  simp

theorem dropZeros_ofNatLE {width n : ℕ} (h : n < 256 ^ width) :
    ((Bytes.ofNatLE width n).reverse.dropWhile (· == 0)).reverse = digits n := by
  induction width generalizing n with
  | zero =>
    have hn : n = 0 := by simpa using h
    simp [Bytes.ofNatLE, hn, digits_zero]
  | succ width ih =>
    have hdiv : n / 256 < 256 ^ width := by
      rw [Nat.div_lt_iff_lt_mul (by decide), ← pow_succ]
      exact h
    have hrest := ih hdiv
    rw [Bytes.ofNatLE, List.reverse_cons, List.dropWhile_append]
    rcases Nat.eq_zero_or_pos (n / 256) with hz | hp
    · rw [hz, digits_zero, List.reverse_eq_nil_iff] at hrest
      rw [hz, hrest]
      rcases Nat.eq_zero_or_pos n with rfl | hn
      · simp [digits_zero]
      · have hne : UInt8.ofNat n ≠ 0 := by
          intro he
          have ht := congrArg UInt8.toNat he
          rw [UInt8.toNat_ofNat', Nat.mod_eq_of_lt (by omega)] at ht
          exact hn.ne' ht
        simp [digits_cons hn, hz, digits_zero, hne]
    · have hn : 0 < n := by omega
      have hne : (Bytes.ofNatLE width (n / 256)).reverse.dropWhile (· == 0) ≠ [] := by
        intro he
        rw [he, List.reverse_nil] at hrest
        exact hp.ne' (digits_eq_nil_iff.mp hrest.symm)
      rw [if_neg (by simpa using hne), List.reverse_append, hrest, digits_cons hn]
      rfl

theorem numberBytes_eq {n : ℕ} (h : n < 256 ^ 4) : Script.numberBytes n = writeNumber n := by
  rw [writeNumber_natCast, Script.numberBytes, Script.digits, dropZeros_ofNatLE h]

end Countersign.Tapscript
