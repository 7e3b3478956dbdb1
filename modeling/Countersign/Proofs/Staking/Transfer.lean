import Countersign.Proofs.FirstFailure
import Countersign.Staking.Spend

/-!
# Transfers that wait for a signature

`AwaitsSignature` lists what an unbonding transaction must look like before it is signed, field by
field. The shape check accepts exactly these transactions and names the first thing that is wrong with
any other, and a spend of one is verified against the digest of its only input.
-/

set_option autoImplicit false

namespace Countersign.Transaction

open Outcome

/-- One input moves to one output with value, final at once and with nothing signed yet. -/
structure AwaitsSignature (t : Transaction) (input : TxIn) (output : TxOut) : Prop where
  inputs : t.inputs = [input]
  outputs : t.outputs = [output]
  value : output.value ≠ 0
  lockTime : t.lockTime = 0
  sequence : input.sequence = 0xffffffff
  scriptSig : input.scriptSig = []
  witness : input.witness = []
  version : t.version = 1 ∨ t.version = 2

theorem simpleTransfer_eq_ok {t : Transaction} {input : TxIn} {output : TxOut} :
    t.simpleTransfer = .ok (input, output) ↔
      t.inputs = [input] ∧ t.outputs = [output] ∧ output.value ≠ 0 := by
  obtain ⟨version, inputs, outputs, lockTime⟩ := t
  rcases inputs with _ | ⟨i, _ | ⟨i', is⟩⟩
  · simp [simpleTransfer]
  · rcases outputs with _ | ⟨o, _ | ⟨o', os⟩⟩
    · simp [simpleTransfer]
    · by_cases hv : o.value = 0
      · simp [simpleTransfer, hv]
        rintro - rfl
        exact hv
      · simp [simpleTransfer, hv]
        rintro - rfl
        exact hv
    · simp [simpleTransfer]
  · simp [simpleTransfer]

theorem awaitingSignature_eq_ok {t : Transaction} {input : TxIn} {output : TxOut} :
    t.awaitingSignature = .ok (input, output) ↔ t.AwaitsSignature input output := by
  simp only [awaitingSignature, bind_eq_ok, Prod.exists, guard_eq_ok, pure_eq_ok,
    simpleTransfer_eq_ok, ne_eq, Decidable.not_not, Prod.mk.injEq]
  constructor
  · intro h
    obtain ⟨i, o, ⟨hi, ho, hv⟩, hl, hs, ⟨hsig, hw⟩, hver, rfl, rfl⟩ := h
    exact ⟨hi, ho, hv, hl, hs, hsig, hw, hver⟩
  · intro h
    obtain ⟨hi, ho, hv, hl, hs, hsig, hw, hver⟩ := h
    exact ⟨input, output, ⟨hi, ho, hv⟩, hl, hs, ⟨hsig, hw⟩, hver, rfl, rfl⟩

inductive Check where
  | inputCount
  | outputCount
  | value
  | lockTime
  | sequence
  | unsigned
  | version
  deriving DecidableEq, Repr

def Check.inOrder : List Check :=
  [.inputCount, .outputCount, .value, .lockTime, .sequence, .unsigned, .version]

/-- The transaction does not pass a check, whatever else is wrong with it. -/
inductive Violates (t : Transaction) : Check → StakingError → Prop where
  | inputCount (other : t.inputs.length ≠ 1) :
    Violates t .inputCount (.invalidInputCount t.inputs.length)
  | outputCount (other : t.outputs.length ≠ 1) :
    Violates t .outputCount (.invalidOutputCount t.outputs.length)
  | value {output : TxOut} (outputs : t.outputs = [output]) (none : output.value = 0) :
    Violates t .value .zeroValueOutput
  | lockTime (locked : t.lockTime ≠ 0) : Violates t .lockTime .hasLockTime
  | sequence {input : TxIn} (inputs : t.inputs = [input]) (replaceable : input.sequence ≠ 0xffffffff) :
    Violates t .sequence .replaceable
  | unsigned {input : TxIn} (inputs : t.inputs = [input])
    (signed : input.scriptSig ≠ [] ∨ input.witness ≠ []) : Violates t .unsigned .alreadySigned
  | version (other : t.version ≠ 1 ∧ t.version ≠ 2) :
    Violates t .version (.unsupportedTxVersion t.version)

def sole {α : Type} (l : List α) (e : ℕ → StakingError) : Except StakingError α :=
  match l with
  | [a] => .ok a
  | l => .error (e l.length)

theorem sole_unique {α : Type} {l : List α} {a b : α} (h : l = [a]) (k : l = [b]) : a = b :=
  List.singleton_inj.mp (h.symm.trans k)

theorem sole_eq_ok {α : Type} {l : List α} {e : ℕ → StakingError} {a : α} :
    sole l e = .ok a ↔ l = [a] := by
  rcases l with _ | ⟨b, _ | ⟨c, l⟩⟩
  · simp [sole]
  · simp [sole]
  · simp [sole]

theorem sole_eq_error {α : Type} {l : List α} {e : ℕ → StakingError} {d : StakingError} :
    sole l e = .error d ↔ l.length ≠ 1 ∧ e l.length = d := by
  rcases l with _ | ⟨b, _ | ⟨c, l⟩⟩
  · simp [sole]
  · simp [sole]
  · simp [sole]

theorem simpleTransfer_eq (t : Transaction) :
    t.simpleTransfer = sole t.inputs .invalidInputCount >>= fun input =>
      sole t.outputs .invalidOutputCount >>= fun output =>
        if output.value = 0 then .error .zeroValueOutput else .ok (input, output) := by
  obtain ⟨version, inputs, outputs, lockTime⟩ := t
  rcases inputs with _ | ⟨i, _ | ⟨i', is⟩⟩
  · rfl
  · rcases outputs with _ | ⟨o, _ | ⟨o', os⟩⟩
    · rfl
    · rfl
    · rfl
  · rfl

theorem simpleTransfer_follows (t : Transaction) :
    Follows t.Violates [.inputCount, .outputCount, .value] t.simpleTransfer := by
  rw [simpleTransfer_eq]
  refine .bind ?_ fun input _ => .bind ?_ fun output outputs => .single ?_
  · intro e
    rw [sole_eq_error]
    constructor
    · rintro ⟨other, rfl⟩
      exact .inputCount other
    · rintro ⟨other⟩
      exact ⟨other, rfl⟩
  · intro e
    rw [sole_eq_error]
    constructor
    · rintro ⟨other, rfl⟩
      exact .outputCount other
    · rintro (_ | ⟨other⟩)
      exact ⟨other, rfl⟩
  · rw [sole_eq_ok] at outputs
    intro e
    constructor
    · intro h
      split at h
      · cases h
        exact .value outputs ‹_›
      · cases h
    · rintro (_ | _ | ⟨again, none⟩)
      obtain rfl := sole_unique outputs again
      rw [if_pos none]

/-- The checks are made in order, and the first that fails is reported. -/
theorem awaitingSignature_follows (t : Transaction) :
    Follows t.Violates Check.inOrder t.awaitingSignature := by
  refine .append (simpleTransfer_follows t) ?_
  rintro ⟨input, output⟩ parts
  obtain ⟨inputs, -, -⟩ := simpleTransfer_eq_ok.mp parts
  refine .guard ?_ fun _ => .guard ?_ fun _ => .guard ?_ fun _ => .guard ?_ fun _ => .ok _
  · intro e
    constructor
    · rintro ⟨locked, rfl⟩
      exact .lockTime locked
    · rintro (_ | _ | _ | ⟨locked⟩)
      exact ⟨locked, rfl⟩
  · intro e
    constructor
    · rintro ⟨replaceable, rfl⟩
      exact .sequence inputs replaceable
    · rintro (_ | _ | _ | _ | ⟨again, replaceable⟩)
      obtain rfl := sole_unique inputs again
      exact ⟨replaceable, rfl⟩
  · intro e
    constructor
    · rintro ⟨signed, rfl⟩
      exact .unsigned inputs (not_and_or.mp signed)
    · rintro (_ | _ | _ | _ | _ | ⟨again, signed⟩)
      obtain rfl := sole_unique inputs again
      exact ⟨not_and_or.mpr signed, rfl⟩
  · intro e
    constructor
    · rintro ⟨other, rfl⟩
      exact .version (not_or.mp other)
    · rintro (_ | _ | _ | _ | _ | _ | ⟨other⟩)
      exact ⟨not_or.mpr other, rfl⟩

namespace AwaitsSignature

variable {t u : Transaction} {input other : TxIn} {output : TxOut}

theorem eq_mk (h : t.AwaitsSignature input output) :
    t = ⟨t.version, [⟨input.previous, [], 0xffffffff, []⟩], [output], 0⟩ := by
  have hi : input = ⟨input.previous, [], 0xffffffff, []⟩ := by
    rw [← h.scriptSig, ← h.sequence, ← h.witness]
  rw [← hi, ← h.inputs, ← h.outputs, ← h.lockTime]

theorem spendDigest (h : t.AwaitsSignature input output) (funding : TxOut) (leafHash : Hash256) :
    t.spendDigest funding leafHash = .ok (Sighash.digest t input funding leafHash) := by
  simp [Transaction.spendDigest, h.inputs]

theorem verifySpend_eq_ok (h : t.AwaitsSignature input output) {funding : TxOut} {leaf : Script}
    {key : XOnlyKey} {signature : Signature} {u : Unit} :
    t.verifySpend funding leaf key signature = .ok u ↔
      Schnorr.verify key (Sighash.digest t input funding (Taproot.leafHash leaf)) signature = true := by
  simp only [verifySpend, h.spendDigest, bind_eq_ok, Except.ok.injEq, exists_eq_left']
  by_cases hv : Schnorr.verify key (Sighash.digest t input funding (Taproot.leafHash leaf)) signature
  · simp [hv, pure_eq_ok]
  · simp [hv, throw_ne_ok]

theorem verifySpend_eq_error (h : t.AwaitsSignature input output) {funding : TxOut} {leaf : Script}
    {key : XOnlyKey} {signature : Signature} {e : StakingError} :
    t.verifySpend funding leaf key signature = .error e ↔
      Schnorr.verify key (Sighash.digest t input funding (Taproot.leafHash leaf)) signature = false ∧
        .invalidSignature = e := by
  simp only [verifySpend, h.spendDigest, bind_eq_error, Except.ok.injEq, exists_eq_left', reduceCtorEq,
    false_or]
  by_cases hv : Schnorr.verify key (Sighash.digest t input funding (Taproot.leafHash leaf)) signature
  · simp [hv, pure_ne_error]
  · simp [hv, throw, throwThe, MonadExceptOf.throw]

end AwaitsSignature

end Countersign.Transaction
