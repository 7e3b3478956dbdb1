import Countersign.Proofs.Tapscript.Machine

/-!
# Reading what was written

A script written from items reads back as one instruction for each item: a key and a number are
pushed, an opcode is itself. So the bytes of a leaf script determine what runs.
-/

set_option autoImplicit false

namespace Countersign.Tapscript

def ofItem : Script.Item → Instruction
  | .key k => .push k.bytes
  | .number n => .push (writeNumber n.toNat)
  | .op o => .op o

theorem read_nil : read [] = some [] := by
  rw [read]

theorem read_of_next? {s rest : Bytes} {i : Instruction} (h : next? s = some (i, rest)) :
    read s = (read rest).map (i :: ·) := by
  cases s with
  | nil => simp [next?] at h
  | cons b r =>
    rw [read]
    split
    · rename_i hn
      rw [h] at hn
      cases hn
    · rename_i j t hn
      rw [h] at hn
      cases hn
      rfl

theorem next?_push {n : UInt8} {data : Bytes} (hl : data.length = n.toNat) (hn : n ≤ 0x4b)
    (rest : Bytes) : next? (n :: (data ++ rest)) = some (.push data, rest) := by
  simp only [next?, if_pos hn, ← hl, Bytes.split?_append, Option.map_some]

theorem next?_op (o : Script.Opcode) (rest : Bytes) :
    next? (o.byte :: rest) = some (.op o, rest) := by
  cases o <;> rfl

theorem next?_key (k : XOnlyKey) (rest : Bytes) :
    next? (0x20 :: (k.bytes ++ rest)) = some (.push k.bytes, rest) :=
  next?_push k.bytes_length (by decide) rest

theorem next?_small {b : UInt8} (h : 0x51 ≤ b) (h' : b ≤ 0x60) (rest : Bytes) :
    next? (b :: rest) = some (.push (writeNumber (b.toNat - 0x50)), rest) := by
  have hl : 0x51 ≤ b.toNat := UInt8.le_iff_toNat_le.mp h
  have hn : ¬ b ≤ 0x4b := by
    rw [UInt8.le_iff_toNat_le]
    exact Nat.not_le.mpr (lt_of_lt_of_le (by decide) hl)
  have hne : ∀ a : UInt8, a.toNat < 0x51 → b ≠ a := by
    rintro a ha rfl
    omega
  simp only [next?, if_neg hn, if_neg (hne 0x4c (by decide)), if_neg (hne 0x4d (by decide)),
    if_neg (hne 0x4e (by decide)), if_neg (hne 0x4f (by decide)), if_pos (And.intro h h')]

theorem next?_number (n : UInt32) (rest : Bytes) :
    next? (Script.encodeNumber n ++ rest) = some (.push (writeNumber n.toNat), rest) := by
  have hlt : n.toNat < 256 ^ 4 := n.toNat_lt
  unfold Script.encodeNumber
  by_cases h0 : n = 0
  · subst h0
    simp [next?, Bytes.split?, writeNumber_zero]
  · by_cases h16 : n ≤ 16
    · have hle : n.toNat ≤ 16 := UInt32.le_iff_toNat_le.mp h16
      have hpos : n.toNat ≠ 0 := fun h => h0 (UInt32.toNat_inj.mp h)
      have hb : (0x50 + n.toUInt8).toNat = 0x50 + n.toNat := by
        rw [UInt8.toNat_add, UInt32.toNat_toUInt8]
        simp only [UInt8.reduceToNat]
        omega
      rw [if_neg h0, if_pos h16, List.singleton_append, next?_small, hb]
      · congr 3
        push_cast
        ring_nf
      · rw [UInt8.le_iff_toNat_le, hb]
        simp only [UInt8.reduceToNat]
        omega
      · rw [UInt8.le_iff_toNat_le, hb]
        simp only [UInt8.reduceToNat]
        omega
    · have hlen : (writeNumber n.toNat).length ≤ 5 := writeNumber_length_le hlt
      have hu : (UInt8.ofNat (writeNumber n.toNat).length).toNat = (writeNumber n.toNat).length := by
        rw [UInt8.toNat_ofNat']
        omega
      rw [if_neg h0, if_neg h16, numberBytes_eq hlt]
      apply next?_push hu.symm
      rw [UInt8.le_iff_toNat_le, hu]
      exact hlen.trans (by decide)

theorem next?_item (i : Script.Item) (rest : Bytes) :
    next? (i.encode ++ rest) = some (ofItem i, rest) := by
  cases i with
  | key k => exact next?_key k rest
  | number n => exact next?_number n rest
  | op o => exact next?_op o rest

theorem read_ofItems (items : List Script.Item) :
    read (Script.ofItems items) = some (items.map ofItem) := by
  induction items with
  | nil => exact read_nil
  | cons i is ih =>
    rw [Script.ofItems, List.flatMap_cons, read_of_next? (next?_item i _)]
    change (read (Script.ofItems is)).map _ = _
    rw [ih]
    rfl

/-- What an item does tells which item it is, since no number is as long as a key. -/
theorem ofItem_injective : Function.Injective ofItem := by
  have hnumber : ∀ n : UInt32, 2 * n.toNat < 256 ^ 5 := by
    intro n
    have hlt := n.toNat_lt
    omega
  have hlength : ∀ n : UInt32, (writeNumber n.toNat).length ≤ 5 := fun n =>
    writeNumber_length_le n.toNat_lt
  intro a b h
  cases a with
  | key k =>
    cases b with
    | key l => rw [XOnlyKey.bytes_injective (Instruction.push.inj h)]
    | number m =>
      have hl := congrArg List.length (Instruction.push.inj h)
      rw [k.bytes_length] at hl
      exact absurd (hlength m) (by omega)
    | op p => cases h
  | number n =>
    cases b with
    | key l =>
      have hl := congrArg List.length (Instruction.push.inj h)
      rw [l.bytes_length] at hl
      exact absurd (hlength n) (by omega)
    | number m =>
      have hr := congrArg (readNumber 5) (Instruction.push.inj h)
      rw [readNumber_writeNumber (hnumber n), readNumber_writeNumber (hnumber m), Option.some.injEq,
        Nat.cast_inj] at hr
      rw [UInt32.toNat_inj.mp hr]
    | op p => cases h
  | op o =>
    cases b with
    | key l => cases h
    | number m => cases h
    | op p => rw [Instruction.op.inj h]

/-- A script is written in one way only. -/
theorem ofItems_injective : Function.Injective Script.ofItems := by
  intro a b h
  have hr := congrArg read h
  rw [read_ofItems, read_ofItems, Option.some.injEq] at hr
  exact ofItem_injective.list_map hr

end Countersign.Tapscript
