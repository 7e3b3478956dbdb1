import Mathlib.Tactic.SplitIfs
import Countersign.Hex
import Countersign.Proofs.Outcome

/-!
# One text for each byte string

A text is read as the byte string that writes it, once its digits are in lower case, and every other text
is refused. Case is all that can differ between two texts that are read as the same bytes.
-/

set_option autoImplicit false

namespace Countersign

theorem Utf8.encode_injective : Function.Injective encode := by
  intro s t h
  have hd := congrArg decode? h
  rw [decode?_encode, decode?_encode] at hd
  exact Option.some.inj hd

namespace Hex

def lowerDigit (c : Char) : Char := if 'A' ≤ c ∧ c ≤ 'F' then Char.ofNat (c.toNat + 32) else c

def lower (s : String) : String := String.ofList (s.toList.map lowerDigit)

def lowerByte (x : UInt8) : UInt8 := if 65 ≤ x ∧ x ≤ 70 then x + 32 else x

def digitByte (n : ℕ) : UInt8 := UInt8.ofNat (if n < 10 then 48 + n else 87 + n)

theorem digitValue?_eq_some {x : UInt8} {v : ℕ} :
    digitValue? x = some v ↔ v < 16 ∧ lowerByte x = digitByte v := by
  have bounded : ∀ n < 256, ∀ v ∈ digitValue? (UInt8.ofNat n), v < 16 := by decide +kernel
  have agree : ∀ n < 256, ∀ v < 16, digitValue? (UInt8.ofNat n) = some v ↔
      lowerByte (UInt8.ofNat n) = digitByte v := by decide +kernel
  have hx := x.toNat_lt
  rw [← UInt8.ofNat_toNat (x := x)]
  constructor
  · intro h
    have hv := bounded _ hx v h
    exact ⟨hv, (agree _ hx v hv).mp h⟩
  · rintro ⟨hv, h⟩
    exact (agree _ hx v hv).mpr h

theorem pair_eq_iff {x y z : UInt8} :
    (∃ u v, digitValue? x = some u ∧ digitValue? y = some v ∧ UInt8.ofNat (16 * u + v) = z) ↔
      lowerByte x = digitByte (z.toNat / 16) ∧ lowerByte y = digitByte (z.toNat % 16) := by
  simp only [digitValue?_eq_some]
  constructor
  · rintro ⟨u, v, ⟨hu, hx⟩, ⟨hv, hy⟩, rfl⟩
    have hz : (UInt8.ofNat (16 * u + v)).toNat = 16 * u + v := by
      rw [UInt8.toNat_ofNat']
      omega
    rw [hz, hx, hy, show (16 * u + v) / 16 = u by omega, show (16 * u + v) % 16 = v by omega]
    exact ⟨rfl, rfl⟩
  · rintro ⟨hx, hy⟩
    have hz := z.toNat_lt
    refine ⟨z.toNat / 16, z.toNat % 16, ⟨by omega, hx⟩, ⟨by omega, hy⟩, ?_⟩
    rw [Nat.div_add_mod, UInt8.ofNat_toNat]

theorem decodePairs_cons_cons {index : ℕ} {x y : UInt8} {r b : Bytes} :
    decodePairs index (x :: y :: r) = .ok b ↔
      ∃ z rest, (∃ u v, digitValue? x = some u ∧ digitValue? y = some v ∧ UInt8.ofNat (16 * u + v) = z) ∧
        decodePairs (index + 2) r = .ok rest ∧ b = z :: rest := by
  rw [decodePairs]
  cases digitValue? x with
  | none => simp
  | some u =>
    cases digitValue? y with
    | none => simp
    | some v =>
      cases decodePairs (index + 2) r with
      | error e => simp [Except.map]
      | ok rest => simp [Except.map, eq_comm]

def encodeBytes (b : Bytes) : Bytes :=
  b.flatMap fun x => [digitByte (x.toNat / 16), digitByte (x.toNat % 16)]

theorem decodePairs_eq_ok : ∀ {t b : Bytes} {index : ℕ},
    decodePairs index t = .ok b ↔ t.map lowerByte = encodeBytes b
  | [], b, index => by cases b <;> simp [decodePairs, encodeBytes]
  | [x], b, index => by cases b <;> simp [decodePairs, encodeBytes]
  | x :: y :: r, b, index => by
    rw [decodePairs_cons_cons]
    simp only [pair_eq_iff, decodePairs_eq_ok (t := r)]
    cases b with
    | nil => simp [encodeBytes]
    | cons z rest => simp [encodeBytes, and_assoc]

theorem decodeBytes_eq_ok {t b : Bytes} : decodeBytes t = .ok b ↔ t.map lowerByte = encodeBytes b := by
  unfold decodeBytes
  split_ifs with odd
  · -- what a byte string is written as has two digits for each byte
    refine ⟨nofun, fun h => ?_⟩
    have hl := congrArg List.length h
    simp [encodeBytes, List.length_flatMap] at hl
    omega
  · exact decodePairs_eq_ok

theorem utf8_encode (b : Bytes) : Utf8.encode (encode b) = encodeBytes b := by
  have hd : ∀ n < 16, String.utf8EncodeChar (digit n) = [digitByte n] := by decide +kernel
  rw [Utf8.encode, encode, String.toList_ofList, encodeChars, List.flatMap_assoc, encodeBytes]
  congr 1
  funext x
  have hx := x.toNat_lt
  rw [List.flatMap_cons, List.flatMap_singleton, hd _ (by omega), hd _ (by omega)]
  rfl

theorem le_of_mem_utf8EncodeChar {c : Char} (h : 128 ≤ c.toNat) :
    ∀ x ∈ String.utf8EncodeChar c, 128 ≤ x.toNat := by
  have hc : 128 ≤ c.val.toNat := h
  have hmax := c.val.toNat_lt
  have hbyte : ∀ n, 128 ≤ n → n < 256 → 128 ≤ (UInt8.ofNat n).toNat := by
    intro n h₁ h₂
    rw [UInt8.toNat_ofNat']
    omega
  unfold String.utf8EncodeChar
  rw [if_neg (by omega)]
  split_ifs
  · simp only [List.forall_mem_cons, List.not_mem_nil, false_implies, implies_true, and_true]
    exact ⟨hbyte _ (by omega) (by omega), hbyte _ (by omega) (by omega)⟩
  · simp only [List.forall_mem_cons, List.not_mem_nil, false_implies, implies_true, and_true]
    exact ⟨hbyte _ (by omega) (by omega), hbyte _ (by omega) (by omega), hbyte _ (by omega) (by omega)⟩
  · simp only [List.forall_mem_cons, List.not_mem_nil, false_implies, implies_true, and_true]
    exact ⟨hbyte _ (by omega) (by omega), hbyte _ (by omega) (by omega), hbyte _ (by omega) (by omega),
      hbyte _ (by omega) (by omega)⟩

theorem lowerByte_of_le {x : UInt8} (h : 128 ≤ x.toNat) : lowerByte x = x := by
  refine if_neg fun hd => ?_
  have := UInt8.le_iff_toNat_le.mp hd.2
  simp at this
  omega

theorem lowerDigit_of_le {c : Char} (h : 128 ≤ c.toNat) : lowerDigit c = c := by
  refine if_neg fun hd => ?_
  have : c.toNat ≤ 70 := UInt32.le_iff_toNat_le.mp hd.2
  omega

theorem utf8EncodeChar_lowerDigit (c : Char) :
    String.utf8EncodeChar (lowerDigit c) = (String.utf8EncodeChar c).map lowerByte := by
  have ascii : ∀ n < 128, String.utf8EncodeChar (lowerDigit (Char.ofNat n)) =
      (String.utf8EncodeChar (Char.ofNat n)).map lowerByte := by decide +kernel
  by_cases hc : c.toNat < 128
  · have h := ascii _ hc
    rwa [Char.ofNat_toNat] at h
  · have hc := Nat.le_of_not_lt hc
    rw [lowerDigit_of_le hc, List.map_congr_left fun x hx =>
      lowerByte_of_le (le_of_mem_utf8EncodeChar hc x hx), List.map_id']

theorem utf8_lower (s : String) : Utf8.encode (lower s) = (Utf8.encode s).map lowerByte := by
  rw [Utf8.encode, lower, String.toList_ofList, List.flatMap_map, Utf8.encode, List.map_flatMap]
  congr 1
  funext c
  exact utf8EncodeChar_lowerDigit c

theorem decode_eq_ok_iff {s : String} {b : Bytes} : decode s = .ok b ↔ lower s = encode b := by
  rw [decode, decodeBytes_eq_ok, ← utf8_lower, ← utf8_encode]
  exact Utf8.encode_injective.eq_iff

theorem decode?_eq_some_iff {s : String} {b : Bytes} : decode? s = some b ↔ lower s = encode b := by
  rw [← decode_eq_ok_iff, decode?]
  cases decode s with
  | error e => simp [Except.toOption]
  | ok a => simp [Except.toOption]

theorem lower_encode (b : Bytes) : lower (encode b) = encode b := by
  have hd : ∀ n < 16, lowerByte (digitByte n) = digitByte n := by decide +kernel
  apply Utf8.encode_injective
  rw [utf8_lower, utf8_encode, encodeBytes, List.map_flatMap]
  congr 1
  funext x
  have hx := x.toNat_lt
  rw [List.map_cons, List.map_cons, List.map_nil, hd _ (by omega), hd _ (by omega)]

theorem decode?_encode (b : Bytes) : decode? (encode b) = some b :=
  decode?_eq_some_iff.mpr (lower_encode b)

theorem length_encode (b : Bytes) : (encode b).length = 2 * b.length := by
  rw [encode, String.length_ofList, encodeChars, List.length_flatMap]
  simp [Nat.mul_comm]

theorem length_lower (s : String) : (lower s).length = s.length := by
  rw [lower, String.length_ofList, List.length_map, String.length_toList]

end Hex

end Countersign
