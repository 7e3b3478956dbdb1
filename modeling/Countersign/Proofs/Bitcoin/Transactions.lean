import Countersign.Bitcoin.Transaction
import Countersign.Proofs.Bitcoin.Decoding

/-!
# The form of a transaction

A transaction is read from its serialization and from nothing else. The marker stands where the count of
inputs would, so the form without witnesses cannot begin like it: that form is only written when there
are inputs. All that a transaction must keep to are lists and strings that can be counted and witnesses
that there is room for, and one whose serialization is short does.
-/

set_option autoImplicit false

namespace Countersign

open Decoder

def TxIn.bare (i : TxIn) : TxIn := { i with witness := [] }

structure Witnessed (w : List Bytes) : Prop where
  count : IsCount w.length
  items : ∀ e ∈ w, IsCount e.length
  room : (w.flatMap CompactSize.sized).length ≤ maxBytes

structure TxIn.Countable (i : TxIn) : Prop where
  scriptSig : IsCount i.scriptSig.length
  witness : Witnessed i.witness

structure Transaction.Countable (t : Transaction) : Prop where
  inputs : IsCount t.inputs.length
  outputs : IsCount t.outputs.length
  input : ∀ i ∈ t.inputs, i.Countable
  output : ∀ o ∈ t.outputs, IsCount o.script.length

theorem witnessed_nil : Witnessed [] := ⟨isCount_zero, nofun, Nat.zero_le _⟩

namespace Decoder

theorem hash256_eq_some {b rest : Bytes} {h : Hash256} :
    hash256 b = some (h, rest) ↔ b = h.bytes ++ rest := by
  simp only [hash256, bind_eq_some, take_eq_some]
  constructor
  · rintro ⟨p, r, ⟨hp, rfl⟩, h⟩
    simp only [Hash256.ofBytes?, dif_pos hp, pure_eq_some] at h
    obtain ⟨rfl, rfl⟩ := h
    rfl
  · rintro rfl
    refine ⟨h.bytes, rest, ⟨h.length_eq, rfl⟩, ?_⟩
    simp only [Hash256.ofBytes?_bytes, pure_eq_some, and_self]

theorem int32_eq_some {b rest : Bytes} {n : Int32} :
    int32 b = some (n, rest) ↔ b = encodeU32 n.toUInt32 ++ rest := by
  simp only [int32, bind_eq_some, u32_eq_some, pure_eq_some]
  constructor
  · rintro ⟨m, _, rfl, rfl, rfl⟩
    rw [UInt32.toUInt32_toInt32]
    rfl
  · rintro rfl
    exact ⟨n.toUInt32, rest, rfl, Int32.toInt32_toUInt32 n, rfl⟩

theorem u32_reads : Reads u32 (fun _ => True) encodeU32 := by
  intro b n rest
  rw [u32_eq_some, true_and, encodeU32]

theorem u64_reads : Reads u64 (fun _ => True) encodeU64 := by
  intro b n rest
  rw [u64_eq_some, true_and, encodeU64]

theorem txIn_reads :
    Reads txIn (fun i => IsCount i.scriptSig.length ∧ i.witness = []) TxIn.encode := by
  intro b i rest
  simp only [txIn, bind_eq_some, hash256_eq_some, u32_eq_some, sized_reads _ _ _, pure_eq_some]
  constructor
  · rintro ⟨txid, _, rfl, vout, _, rfl, script, _, ⟨hs, rfl⟩, sequence, _, rfl, rfl, rfl⟩
    exact ⟨⟨hs, rfl⟩, by simp [TxIn.encode, OutPoint.encode, encodeU32]⟩
  · rintro ⟨⟨hs, hw⟩, rfl⟩
    obtain ⟨⟨txid, vout⟩, script, sequence, _⟩ := i
    obtain rfl : _ = [] := hw
    refine ⟨txid, _, ?_, vout, _, rfl, script, _, ⟨hs, rfl⟩, sequence, rest, rfl, rfl, rfl⟩
    simp [TxIn.encode, OutPoint.encode, encodeU32]

theorem txOut_reads : Reads txOut (fun o => IsCount o.script.length) TxOut.encode := by
  intro b o rest
  simp only [txOut, bind_eq_some, u64_eq_some, sized_reads _ _ _, pure_eq_some]
  constructor
  · rintro ⟨value, _, rfl, script, _, ⟨hs, rfl⟩, rfl, rfl⟩
    exact ⟨hs, by simp [TxOut.encode, encodeU64]⟩
  · rintro ⟨hs, rfl⟩
    exact ⟨o.value, _, by simp [TxOut.encode, encodeU64], o.script, rest, ⟨hs, rfl⟩, rfl, rfl⟩

theorem witness_reads : Reads witness Witnessed (CompactSize.counted CompactSize.sized) := by
  intro b w rest
  simp only [witness, bind_eq_some, compactSize_reads _ _ _,
    within_reads (times_reads sized_reads _) _ _ _, CompactSize.counted, List.append_assoc]
  constructor
  · rintro ⟨n, _, ⟨hn, rfl⟩, ⟨⟨rfl, items⟩, room⟩, rfl⟩
    exact ⟨⟨hn, items, room⟩, rfl⟩
  · rintro ⟨⟨count, items, room⟩, rfl⟩
    exact ⟨w.length, _, ⟨count, rfl⟩, ⟨⟨rfl, items⟩, room⟩, rfl⟩

/-- Witnesses are read one for each input that was read before. -/
theorem witnesses_eq_some {bares : List TxIn} (unsigned : ∀ i ∈ bares, i.witness = [])
    {b rest : Bytes} {l : List TxIn} :
    witnesses bares b = some (l, rest) ↔ l.map TxIn.bare = bares ∧
      (∀ i ∈ l, Witnessed i.witness) ∧ b = l.flatMap TxIn.encodeWitness ++ rest := by
  induction bares generalizing b l rest with
  | nil =>
    simp only [witnesses, pure_eq_some, List.map_eq_nil_iff]
    constructor
    · rintro ⟨rfl, rfl⟩
      exact ⟨rfl, nofun, rfl⟩
    · rintro ⟨rfl, -, rfl⟩
      exact ⟨rfl, rfl⟩
  | cons i bares ih =>
    obtain ⟨hi, unsigned⟩ := List.forall_mem_cons.mp unsigned
    simp only [witnesses, bind_eq_some, witness_reads _ _ _, ih unsigned, pure_eq_some]
    constructor
    · rintro ⟨witness, _, ⟨hw, rfl⟩, l, _, ⟨rfl, hl, rfl⟩, rfl, rfl⟩
      refine ⟨?_, List.forall_mem_cons.mpr ⟨hw, hl⟩, by simp [TxIn.encodeWitness]⟩
      rw [List.map_cons, TxIn.bare, ← hi]
    · rintro ⟨hm, hl, rfl⟩
      cases l with
      | nil => simp at hm
      | cons j l =>
        obtain ⟨rfl, rfl⟩ := List.cons.inj hm
        obtain ⟨hj, hl⟩ := List.forall_mem_cons.mp hl
        exact ⟨j.witness, _, ⟨hj, by simp [TxIn.encodeWitness]⟩, l, rest, ⟨rfl, hl, rfl⟩, rfl, rfl⟩

end Decoder

theorem encodeU32_injective : Function.Injective encodeU32 := fun _ _ h =>
  (Decoder.u32_reads.append_inj trivial trivial (congrArg (· ++ []) h)).1

theorem encodeU64_injective : Function.Injective encodeU64 := fun _ _ h =>
  (Decoder.u64_reads.append_inj trivial trivial (congrArg (· ++ []) h)).1

theorem OutPoint.encode_injective : Function.Injective encode := by
  intro a b h
  obtain ⟨htxid, hvout⟩ := List.append_inj h (by rw [a.txid.length_eq, b.txid.length_eq])
  cases a
  cases b
  rw [mk.injEq]
  exact ⟨Hash256.bytes_injective htxid, encodeU32_injective hvout⟩

namespace TxIn

theorem length_le_encode (i : TxIn) : i.scriptSig.length ≤ i.encode.length := by
  have h := CompactSize.length_le_sized i.scriptSig
  simp only [encode, List.length_append]
  omega

theorem one_le_encode (i : TxIn) : 1 ≤ i.encode.length := by
  have h := CompactSize.one_le_sized i.scriptSig
  simp only [encode, List.length_append]
  omega

theorem counted_bare (l : List TxIn) :
    CompactSize.counted encode (l.map bare) = CompactSize.counted encode l := by
  rw [CompactSize.counted, CompactSize.counted, List.length_map, List.flatMap_map]
  rfl

theorem bare_unsigned {l : List TxIn} : ∀ i ∈ l.map bare, i.witness = [] := by
  intro i hi
  obtain ⟨j, -, rfl⟩ := List.mem_map.mp hi
  rfl

end TxIn

namespace TxOut

theorem length_le_encode (o : TxOut) : o.script.length ≤ o.encode.length := by
  have h := CompactSize.length_le_sized o.script
  simp only [encode, List.length_append]
  omega

theorem one_le_encode (o : TxOut) : 1 ≤ o.encode.length := by
  have h := CompactSize.one_le_sized o.script
  simp only [encode, List.length_append]
  omega

end TxOut

namespace Transaction

variable {t : Transaction}

/-- What stands between the marker and flag and the lock time. -/
def encodeSigned (t : Transaction) : Bytes :=
  CompactSize.counted TxIn.encode t.inputs ++ CompactSize.counted TxOut.encode t.outputs ++
    t.inputs.flatMap TxIn.encodeWitness

theorem encode_of_witnessForm (h : t.hasWitnessForm = true) :
    t.encode = t.encodeVersion ++ ([0, 1] ++ (t.encodeSigned ++ encodeU32 t.lockTime)) := by
  simp [encode, h, encodeSigned]

theorem encode_of_bareForm (h : t.hasWitnessForm = false) :
    t.encode = t.encodeVersion ++ (CompactSize.counted TxIn.encode t.inputs ++
      (CompactSize.counted TxOut.encode t.outputs ++ encodeU32 t.lockTime)) := by
  simp [encode, h, encodeBare]

theorem hasWitnessForm_eq_false :
    t.hasWitnessForm = false ↔ t.inputs ≠ [] ∧ ∀ i ∈ t.inputs, i.witness = [] := by
  simp [hasWitnessForm]

end Transaction

namespace Decoder

variable {b rest : Bytes} {t : Transaction}

theorem flagged_eq_some {version : Int32} :
    flagged version b = some (t, rest) ↔ t.version = version ∧ t.hasWitnessForm = true ∧ t.Countable ∧
      b = 1 :: (t.encodeSigned ++ encodeU32 t.lockTime) ++ rest := by
  simp only [flagged, bind_eq_some, byte_eq_some, require_eq_some, counted_reads txIn_reads _ _ _,
    counted_reads txOut_reads _ _ _, u32_eq_some, pure_eq_some, beq_iff_eq]
  constructor
  · rintro ⟨_, _, rfl, _, _, ⟨rfl, rfl⟩, bares, _, ⟨⟨hn, hi⟩, rfl⟩, outputs, _, ⟨⟨hm, ho⟩, rfl⟩,
      inputs, _, hw, _, _, ⟨hf, rfl⟩, lockTime, _, rfl, rfl, rfl⟩
    obtain ⟨rfl, hitems, rfl⟩ := (witnesses_eq_some fun i h => (hi i h).2).mp hw
    rw [List.length_map] at hn
    refine ⟨rfl, hf, ⟨hn, hm, ?_, ho⟩, ?_⟩
    · intro i h
      exact ⟨(hi _ (List.mem_map_of_mem h)).1, hitems i h⟩
    · simp [Transaction.encodeSigned, TxIn.counted_bare, encodeU32]
  · rintro ⟨rfl, hf, ht, rfl⟩
    refine ⟨1, _, rfl, (), _, ⟨rfl, rfl⟩, t.inputs.map TxIn.bare, _, ⟨⟨?_, ?_⟩, ?_⟩, t.outputs, _,
      ⟨⟨ht.outputs, ht.output⟩, rfl⟩, t.inputs, _, (witnesses_eq_some TxIn.bare_unsigned).mpr
        ⟨rfl, fun i h => (ht.input i h).witness, rfl⟩,
      (), _, ⟨hf, rfl⟩, t.lockTime, _, rfl, rfl, rfl⟩
    · rw [List.length_map]
      exact ht.inputs
    · intro i h
      obtain ⟨j, hj, rfl⟩ := List.mem_map.mp h
      exact ⟨(ht.input j hj).scriptSig, rfl⟩
    · simp [Transaction.encodeSigned, TxIn.counted_bare, encodeU32]

theorem transaction_reads : Reads transaction Transaction.Countable Transaction.encode := by
  intro b t rest
  simp only [transaction, bind_eq_some, int32_eq_some, counted_reads txIn_reads _ _ _]
  constructor
  · rintro ⟨version, _, rfl, inputs, r, ⟨⟨hn, hi⟩, rfl⟩, h⟩
    cases inputs with
    | nil =>
      -- the count of no inputs is the marker
      obtain ⟨rfl, hf, ht, rfl⟩ := flagged_eq_some.mp h
      exact ⟨ht, by
        simp [Transaction.encode_of_witnessForm hf, Transaction.encodeVersion, CompactSize.counted,
          CompactSize.encode]⟩
    | cons i inputs =>
      simp only [List.isEmpty_cons, Bool.false_eq_true, if_false, bind_eq_some,
        counted_reads txOut_reads _ _ _, u32_eq_some, pure_eq_some] at h
      obtain ⟨outputs, _, ⟨⟨hm, ho⟩, rfl⟩, lockTime, _, rfl, rfl, rfl⟩ := h
      have hb : Transaction.hasWitnessForm ⟨version, i :: inputs, outputs, lockTime⟩ = false :=
        Transaction.hasWitnessForm_eq_false.mpr ⟨List.cons_ne_nil _ _, fun j hj => (hi j hj).2⟩
      refine ⟨⟨hn, hm, ?_, ho⟩, by
        simp [Transaction.encode_of_bareForm hb, Transaction.encodeVersion, encodeU32]⟩
      intro j hj
      obtain ⟨hs, hw⟩ := hi j hj
      exact ⟨hs, hw ▸ witnessed_nil⟩
  · rintro ⟨ht, rfl⟩
    cases hf : t.hasWitnessForm with
    | true =>
      rw [Transaction.encode_of_witnessForm hf]
      refine ⟨t.version, _, List.append_assoc _ _ _, [], _, ⟨⟨isCount_zero, List.forall_mem_nil _⟩, ?_⟩,
        flagged_eq_some.mpr ⟨rfl, hf, ht, rfl⟩⟩
      simp [CompactSize.counted, CompactSize.encode]
    | false =>
      obtain ⟨hne, hw⟩ := Transaction.hasWitnessForm_eq_false.mp hf
      rw [Transaction.encode_of_bareForm hf]
      refine ⟨t.version, _, List.append_assoc _ _ _, t.inputs, _,
        ⟨⟨ht.inputs, fun i h => ⟨(ht.input i h).scriptSig, hw i h⟩⟩, List.append_assoc _ _ _⟩, ?_⟩
      rw [if_neg (by simpa using hne)]
      simp only [bind_eq_some, counted_reads txOut_reads _ _ _, u32_eq_some, pure_eq_some]
      exact ⟨t.outputs, _, ⟨⟨ht.outputs, ht.output⟩, List.append_assoc _ _ _⟩, t.lockTime, rest, rfl, rfl,
        rfl⟩

end Decoder

namespace Transaction

variable {t : Transaction}

theorem decode?_eq_some {b : Bytes} : decode? b = some t ↔ t.Countable ∧ b = t.encode :=
  Decoder.exactly_eq_some Decoder.transaction_reads

theorem length_le_encode :
    (CompactSize.counted TxIn.encode t.inputs).length ≤ t.encode.length ∧
      (CompactSize.counted TxOut.encode t.outputs).length ≤ t.encode.length ∧
      ∀ i ∈ t.inputs, i.encodeWitness.length ≤ t.encode.length ∨ i.witness = [] := by
  cases hf : t.hasWitnessForm with
  | true =>
    rw [encode_of_witnessForm hf]
    simp only [encodeSigned, List.length_append]
    refine ⟨by omega, by omega, ?_⟩
    intro i hi
    have h := CompactSize.length_le_flatMap (f := TxIn.encodeWitness) hi
    exact Or.inl (by omega)
  | false =>
    rw [encode_of_bareForm hf]
    simp only [List.length_append]
    exact ⟨by omega, by omega, fun i hi => Or.inr ((hasWitnessForm_eq_false.mp hf).2 i hi)⟩

theorem isCount_of_le {n : ℕ} (h : n ≤ maxTextBytes) : IsCount n :=
  Nat.lt_of_le_of_lt h (by decide)

theorem witnessed_of_length_le {w : List Bytes}
    (h : (CompactSize.counted CompactSize.sized w).length ≤ maxTextBytes) : Witnessed w := by
  refine ⟨isCount_of_le (Nat.le_trans (CompactSize.count_le_counted CompactSize.one_le_sized) h), ?_, ?_⟩
  · intro e he
    exact isCount_of_le (Nat.le_trans (CompactSize.length_le_sized e)
      (Nat.le_trans (CompactSize.length_le_counted he) h))
  · rw [CompactSize.counted, List.length_append] at h
    exact Nat.le_trans (Nat.le_add_left _ _) h

theorem countable_of_length_le (h : t.encode.length ≤ maxTextBytes) : t.Countable := by
  obtain ⟨hinputs, houtputs, hwitness⟩ := t.length_le_encode
  have small : ∀ {k : ℕ}, k ≤ t.encode.length → IsCount k := fun hk => isCount_of_le (Nat.le_trans hk h)
  refine ⟨small ?_, small ?_, ?_, ?_⟩
  · exact Nat.le_trans (CompactSize.count_le_counted TxIn.one_le_encode) hinputs
  · exact Nat.le_trans (CompactSize.count_le_counted TxOut.one_le_encode) houtputs
  · intro i hi
    have hin := Nat.le_trans (CompactSize.length_le_counted hi) hinputs
    refine ⟨small (Nat.le_trans i.length_le_encode hin), ?_⟩
    cases hwitness i hi with
    | inl written => exact witnessed_of_length_le (Nat.le_trans written h)
    | inr none => exact none ▸ witnessed_nil
  · intro o ho
    exact small (Nat.le_trans o.length_le_encode
      (Nat.le_trans (CompactSize.length_le_counted ho) houtputs))

theorem ofText?_eq_some_iff {s : String} :
    ofText? s = some t ↔ t.encode.length ≤ maxTextBytes ∧ Hex.decode? s = some t.encode := by
  simp only [ofText?, Option.bind_eq_some_iff, Option.ite_none_right_eq_some, decode?_eq_some]
  constructor
  · rintro ⟨_, hs, hb, -, rfl⟩
    exact ⟨hb, hs⟩
  · rintro ⟨hb, hs⟩
    exact ⟨t.encode, hs, hb, countable_of_length_le hb, rfl⟩

end Transaction

end Countersign
