import Countersign.Proofs.Policy.Asking
import Countersign.Proofs.Staking.Locking
import Countersign.Proofs.Staking.Transfer

/-!
# What the policy judges by

Each check of the policy stated as the condition under which it passes, with heights and amounts
compared as integers. A request that is judged well comes with the stake, the two outputs rebuilt from
it and a staker's signature on the leaf that is to be revealed.
-/

set_option autoImplicit false

namespace Countersign.Policy

open Outcome

variable {p : Parameters} {stake : Stake} {u : Unit}

theorem checkMember_eq_ok {key : PublicKey} {height : UInt32} :
    checkMember p key height = .ok u ↔ key ∈ p.covenantKeys := by
  unfold checkMember Parameters.isMember
  by_cases h : key ∈ p.covenantKeys
  · simp [h]
  · simp [h]

theorem confirmations_lt_iff {tip height : UInt32} {depth : UInt16} :
    confirmations tip height < depth.toNat ↔ tip.toNat + 1 < height.toNat + depth.toNat := by
  unfold confirmations
  omega

theorem checkMature_eq_ok {txid : Hash256} {tip height : UInt32} :
    checkMature p txid tip height = .ok u ↔
      height.toNat + p.confirmationDepth.toNat ≤ tip.toNat + 1 := by
  simp only [checkMature, confirmations_lt_iff, ← Nat.not_lt]
  by_cases h : tip.toNat + 1 < height.toNat + p.confirmationDepth.toNat
  · simp [h]
  · simp [h]

theorem checkIndex_eq_ok {spent : OutPoint} :
    checkIndex stake spent = .ok u ↔ stake.stakingIndex = spent.vout.toNat := by
  unfold checkIndex
  by_cases h : spent.vout.toNat = stake.stakingIndex
  · simp [h]
  · simp [h, Ne.symm h]

theorem checkBounds_eq_ok :
    checkBounds p stake = .ok u ↔
      (p.minTime ≤ stake.announcement.time ∧ stake.announcement.time ≤ p.maxTime) ∧
      p.minAmount ≤ stake.stakingOutput.value ∧ stake.stakingOutput.value ≤ p.maxAmount := by
  have ht : ¬ (stake.announcement.time < p.minTime ∨ stake.announcement.time > p.maxTime) ↔
      p.minTime ≤ stake.announcement.time ∧ stake.announcement.time ≤ p.maxTime := by
    simp only [not_or, gt_iff_lt, UInt16.not_lt]
  have ha : ¬ (stake.stakingOutput.value < p.minAmount ∨ stake.stakingOutput.value > p.maxAmount) ↔
      p.minAmount ≤ stake.stakingOutput.value ∧ stake.stakingOutput.value ≤ p.maxAmount := by
    simp only [not_or, gt_iff_lt, UInt64.not_lt]
  rw [← ht, ← ha]
  unfold checkBounds
  by_cases h : stake.announcement.time < p.minTime ∨ stake.announcement.time > p.maxTime
  · simp [h]
  · by_cases k : stake.stakingOutput.value < p.minAmount ∨ stake.stakingOutput.value > p.maxAmount
    · simp [h, k]
    · simp [h, k]

theorem remainder_eq_ok {amount value : Amount} :
    remainder p amount = .ok value ↔
      p.unbondingFee < amount ∧ value.toNat + p.unbondingFee.toNat = amount.toNat := by
  unfold remainder
  by_cases h : p.unbondingFee < amount
  · have hle : p.unbondingFee ≤ amount := UInt64.le_of_lt h
    have hn := UInt64.toNat_sub_of_le _ _ hle
    have hl := UInt64.le_iff_toNat_le.mp hle
    simp only [h, ite_true, Except.ok.injEq, true_and, ← UInt64.toNat_inj]
    omega
  · simp [h]

/-- What speaks for a request once all answers are in: the stake read from the chain, the output that
its terms make with the unbonding time, and the staking output with the leaf to be revealed. -/
structure Merits (r : UnbondingRequest) (input : TxIn) (output : TxOut) (inclusion : Inclusion)
    (tip : UInt32) (p : Parameters) (stake : Stake) (unbonding staking : LockedOutput) : Prop where
  member : r.covenantKey ∈ p.covenantKeys
  mature : inclusion.height.toNat + p.confirmationDepth.toNat ≤ tip.toNat + 1
  recognised : Stake.recognise inclusion.transaction p.tag.bytes p.committee p.quorum = .ok stake
  index : stake.stakingIndex = input.previous.vout.toNat
  time : p.minTime ≤ stake.announcement.time ∧ stake.announcement.time ≤ p.maxTime
  amount : p.minAmount ≤ stake.stakingOutput.value ∧ stake.stakingOutput.value ≤ p.maxAmount
  fee : p.unbondingFee < stake.stakingOutput.value
  rebuilt : LockedOutput.build .unbonding
    (Stake.terms stake.announcement.staker stake.announcement.finalityProvider p.committee p.quorum
      p.unbondingTime) output.value = .ok unbonding
  paid : output.value.toNat + p.unbondingFee.toNat = stake.stakingOutput.value.toNat
  paysTo : output.script = unbonding.script
  locked : LockedOutput.build .staking
    (Stake.terms stake.announcement.staker stake.announcement.finalityProvider p.committee p.quorum
      stake.announcement.time) stake.stakingOutput.value = .ok staking
  signed : Schnorr.verify stake.announcement.staker
    (Sighash.digest r.transaction input stake.stakingOutput (Taproot.leafHash staking.leaves.unbonding))
    r.stakerSignature = true

def order (network : Network) (r : UnbondingRequest) (stake : Stake) (path : RevealedLeaf) :
    SigningRequest where
  stakingOutput := stake.stakingOutput
  transaction := r.transaction
  covenantKey := r.covenantKey
  walletAddress := network.keyHashAddress r.covenantKey
  path := path

theorem judge_eq_ok {network : Network} {r : UnbondingRequest} {input : TxIn} {output : TxOut}
    {inclusion : Inclusion} {tip : UInt32} {request : SigningRequest}
    (shape : r.transaction.AwaitsSignature input output) :
    judge network r input output inclusion tip p = .ok request ↔
      ∃ stake unbonding staking path, Merits r input output inclusion tip p stake unbonding staking ∧
        staking.unbondingPath = .ok path ∧ request = order network r stake path := by
  simp only [judge, bind_eq_ok, guard_eq_ok, pure_eq_ok, mapError_eq_ok, checkMember_eq_ok,
    checkMature_eq_ok, checkIndex_eq_ok, checkBounds_eq_ok, remainder_eq_ok,
    shape.verifySpend_eq_ok, ne_eq, Decidable.not_not]
  constructor
  · rintro ⟨-, member, -, mature, stake, recognised, -, index, -, ⟨time, amount⟩, value, ⟨fee, paid⟩,
      unbonding, rebuilt, rfl, staking, locked, path, revealed, -, signed, rfl⟩
    have hs := LockedOutput.reveal_script revealed
    have hv := LockedOutput.build_value rebuilt
    refine ⟨stake, unbonding, staking, path, ⟨member, mature, recognised, index, time, amount, fee, ?_,
      ?_, rfl, locked, ?_⟩, revealed, rfl⟩
    · rw [LockedOutput.txOut, hv]
      exact rebuilt
    · rw [LockedOutput.txOut, hv]
      exact paid
    · simpa only [hs] using signed
  · intro h
    obtain ⟨stake, unbonding, staking, path, m, revealed, rfl⟩ := h
    have hs := LockedOutput.reveal_script revealed
    have hv := LockedOutput.build_value m.rebuilt
    have ho : output = unbonding.txOut := by
      rw [LockedOutput.txOut, hv, ← m.paysTo]
    refine ⟨(), m.member, (), m.mature, stake, m.recognised, (), m.index, (), ⟨m.time, m.amount⟩,
      output.value, ⟨m.fee, m.paid⟩, unbonding, m.rebuilt, ho, staking, m.locked, path, revealed, (),
      ?_, rfl⟩
    simpa only [hs] using m.signed

end Countersign.Policy
