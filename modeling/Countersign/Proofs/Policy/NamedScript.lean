import Countersign.Proofs.Bitcoin.Transactions
import Countersign.Proofs.Node.Lookup
import Countersign.Proofs.Policy.Conflict

/-!
# What the named script decides

The script that a request names goes into the lookup, which is content with any output that pays it. The
output to be spent is found later, by the script that the stake's terms make. So over a node the name
decides whether an order is placed and not which: every taproot output of the staking transaction may be
named, and the order is the same. Only where they all pay the staking script is it sure to be the one that
was named.
-/

set_option autoImplicit false

namespace Countersign

open Outcome

namespace Policy

/-- The chain is as a node tells it, and everyone else answers for themselves. -/
def overNode (replies : Node.Replies) (others : Answers) : Answers
  | .transaction txid script => Dialogue.outcome (I := Rpc) replies (Node.inclusion txid script)
  | .tip => Dialogue.outcome (I := Rpc) replies Node.tip
  | q => others q

variable {network : Network} {r : UnbondingRequest} {replies : Node.Replies} {others : Answers}
  {request : SigningRequest}

theorem overNode_included {txid : Hash256} {script : Script} {found : Inclusion} :
    overNode replies others (.transaction txid script) = .ok found ↔
      Node.Includes replies txid found ∧ ∃ o ∈ found.transaction.outputs, o.script = script :=
  Node.inclusion_eq_ok

def naming (r : UnbondingRequest) (script : Script) : UnbondingRequest :=
  { r with stakingScript := script }

section Renaming

variable {input : TxIn} {output : TxOut} {inclusion : Inclusion} {tip : UInt32}
  {p : Parameters} {stake : Stake} {unbonding staking : LockedOutput}
  (m : Merits r input output inclusion tip p stake unbonding staking)

include m

theorem Merits.renamed (script : Script) :
    Merits (naming r script) input output inclusion tip p stake unbonding staking :=
  ⟨m.member, m.mature, m.recognised, m.index, m.time, m.amount, m.fee, m.rebuilt, m.paid, m.paysTo, m.locked,
    m.signed⟩

theorem Merits.spends :
    inclusion.transaction.outputs[input.previous.vout.toNat]? = some stake.stakingOutput ∧
      Script.isTaproot stake.stakingOutput.script = true := by
  obtain ⟨-, -, -, -, -, locked, -, sole⟩ := Stake.recognise_eq_ok.mp m.recognised
  rw [← m.index, sole.holds]
  exact ⟨sole.here, (isTaproot_iff _).mpr ⟨_, locked.outputKey.xOnly.bytes_length, rfl⟩⟩

end Renaming

theorem Grounds.Sustain.renamed {g : Grounds} (s : g.Sustain r (overNode replies others)) {script : Script}
    (taproot : Script.isTaproot script = true)
    (pays : ∃ o ∈ g.inclusion.transaction.outputs, o.script = script) :
    g.Sustain (naming r script) (overNode replies others) := by
  have included := (overNode_included.mp s.included).1
  exact ⟨s.shape, (isTaproot_iff _).mp taproot, overNode_included.mpr ⟨included, pays⟩, s.tip, s.parameters,
    s.merits.renamed script⟩

/-- An order stands whichever taproot output of the staking transaction is named, the one that is spent
among them. It is sure to be for the named one only if there is no other to name. -/
theorem order_under_any_name
    (ordered : Inquiry.signature request ∈ asked (overNode replies others) (sign network r)) :
    ∃ input found, r.transaction.inputs = [input] ∧
      Node.Includes replies input.previous.txid found ∧
      found.transaction.outputs[input.previous.vout.toNat]? = some request.stakingOutput ∧
      Script.isTaproot request.stakingOutput.script = true ∧
      (∀ script, Inquiry.signature request ∈
          asked (overNode replies others) (sign network (naming r script)) ↔
        Script.isTaproot script = true ∧ ∃ o ∈ found.transaction.outputs, o.script = script) ∧
      ((∀ script, Inquiry.signature request ∈
          asked (overNode replies others) (sign network (naming r script)) →
            request.stakingOutput.script = script) ↔
        ∀ o ∈ found.transaction.outputs, Script.isTaproot o.script = true →
          request.stakingOutput.script = o.script) := by
  obtain ⟨g, path, s, revealed, rfl⟩ := (order_asked_iff request).mp ordered
  have included := (overNode_included.mp s.included).1
  have placed : ∀ script, Inquiry.signature (order network r g.stake path) ∈
      asked (overNode replies others) (sign network (naming r script)) ↔
        Script.isTaproot script = true ∧ ∃ o ∈ g.inclusion.transaction.outputs, o.script = script := by
    intro script
    constructor
    · intro again
      obtain ⟨g', path', s', -, -⟩ := (order_asked_iff _).mp again
      obtain ⟨included', pays⟩ := overNode_included.mp s'.included
      have same : g'.input = g.input := Transaction.sole_unique s'.shape.inputs s.shape.inputs
      rw [same] at included'
      rw [included'.unique included] at pays
      exact ⟨(isTaproot_iff _).mpr s'.taproot, pays⟩
    · rintro ⟨taproot, pays⟩
      exact (order_asked_iff _).mpr ⟨g, path, s.renamed taproot pays, revealed, rfl⟩
  obtain ⟨spent, taproot⟩ := s.merits.spends
  refine ⟨g.input, g.inclusion, s.shape.inputs, included, spent, taproot, placed, ?_⟩
  simp only [placed, and_imp, forall_exists_index]
  constructor
  · intro h o ho taproot
    exact h o.script taproot o ho rfl
  · rintro h _ taproot o ho rfl
    exact h o ho taproot

end Policy

namespace Sample

open Policy

def decoy : Script := 0x51 :: 0x20 :: List.replicate 32 7

def decoyed : Stake.Surroundings := { surroundings with before := [⟨5000, decoy⟩] }

theorem decoy_ne : decoy ≠ (staking 100000).script := by decide +kernel

theorem decoyed_foreign : decoyed.Foreign plan := by
  intro o ho
  rw [List.mem_singleton.mp ho]
  constructor
  · rintro ⟨a, ha⟩
    cases ha
  · exact decoy_ne

def decoyedUnbound : Unbonding honest parameters :=
  { unbound 2 version_two with surroundings := decoyed, foreign := decoyed_foreign, index := rfl }

def decoyedRequest : UnbondingRequest :=
  decoyedUnbound.request (Schnorr.signWithNonce 5 pair decoyedUnbound.digest) ⟨first, false⟩

def decoyedAnswers : Answers := overNode (node (plan.within decoyed) 200 209) (answers 209)

theorem decoyed_included (txid : Hash256) :
    Node.Includes (node (plan.within decoyed) 200 209) txid ⟨plan.within decoyed, 200⟩ :=
  node_includes (by decide +kernel) txid

theorem decoyed_sustained :
    (decoyedUnbound.grounds 200 209).Sustain decoyedRequest decoyedAnswers := by
  have member : (⟨first, false⟩ : PublicKey) ∈ parameters.covenantKeys := by decide
  have mature : (200 : UInt32).toNat + parameters.confirmationDepth.toNat ≤ (209 : UInt32).toNat + 1 := by
    decide
  have signed : Schnorr.verify honest.pair.publicKey.xOnly decoyedUnbound.digest
      (Schnorr.signWithNonce 5 pair decoyedUnbound.digest) = true :=
    Schnorr.verify_signWithNonce (by decide) (by decide)
  have paid : (staking 100000).txOut ∈ decoyedUnbound.staked.outputs := by
    rw [show decoyedUnbound.staked = plan.within decoyed from rfl]
    simp [Stake.Plan.within, plan]
  have included : decoyedAnswers (.transaction decoyedUnbound.staked.txid (staking 100000).script) =
      .ok ⟨decoyedUnbound.staked, 200⟩ :=
    overNode_included.mpr ⟨decoyed_included _, _, paid, rfl⟩
  exact decoyedUnbound.sustain honest_within member mature signed included node_tip rfl

theorem decoyed_ordered : ∃ request,
    Inquiry.signature request ∈ asked decoyedAnswers (sign .signet decoyedRequest) ∧
      Inquiry.signature request ∈ asked decoyedAnswers (sign .signet (naming decoyedRequest decoy)) ∧
      request.stakingOutput = (staking 100000).txOut := by
  obtain ⟨path, revealed, -⟩ :=
    LockedOutput.unbondingPath_eq_ok (Stake.plan_staking decoyedUnbound.planned)
  have pays : ∃ o ∈ (decoyedUnbound.grounds 200 209).inclusion.transaction.outputs, o.script = decoy :=
    ⟨⟨5000, decoy⟩, List.mem_cons_self, rfl⟩
  have renamed := decoyed_sustained.renamed (by decide) pays
  exact ⟨_, (order_asked_iff _).mpr ⟨_, path, decoyed_sustained, revealed, rfl⟩,
    (order_asked_iff _).mpr ⟨_, path, renamed, revealed, rfl⟩, rfl⟩

end Sample

namespace Policy

open Sample in
theorem sample_order_under_decoy : ∃ request,
    Inquiry.signature request ∈ asked decoyedAnswers (sign .signet decoyedRequest) ∧
      (∀ script, Inquiry.signature request ∈
          asked decoyedAnswers (sign .signet (naming decoyedRequest script)) ↔
        Script.isTaproot script = true ∧ ∃ o ∈ (plan.within decoyed).outputs, o.script = script) := by
  obtain ⟨request, ordered, -⟩ := decoyed_ordered
  obtain ⟨input, found, -, included, -, -, placed, -⟩ := order_under_any_name ordered
  rw [included.unique (decoyed_included _)] at placed
  exact ⟨request, ordered, placed⟩

open Sample in
/-- What is named need not be what is spent. -/
theorem named_script_not_spent : ¬ ∀ (network : Network) (r : UnbondingRequest) (replies : Node.Replies)
    (others : Answers) (request : SigningRequest),
    Inquiry.signature request ∈ asked (overNode replies others) (sign network r) →
      request.stakingOutput.script = r.stakingScript := by
  intro h
  obtain ⟨request, -, ordered, spent⟩ := decoyed_ordered
  have named := h .signet (naming decoyedRequest decoy) _ _ request ordered
  rw [spent] at named
  exact decoy_ne named.symm

end Policy

end Countersign
