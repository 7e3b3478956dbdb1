import Countersign.Proofs.Policy.HonestStake

/-!
# One stake, one unbonding

The merits of two requests that rest on the same inclusion and the same parameters determine the same
stake, the same output and the same leaf to be revealed, whoever asks and whatever the tip is by then.
So two approved transactions that spend the same outpoint differ in their version at most.
-/

set_option autoImplicit false

namespace Countersign

def Transaction.SpendsOnly (t : Transaction) (spent : OutPoint) : Prop :=
  ∀ i ∈ t.inputs, i.previous = spent

namespace Policy

section TwoRuns

variable {r₁ r₂ : UnbondingRequest} {input₁ input₂ : TxIn} {output₁ output₂ : TxOut}
  {inclusion : Inclusion} {tip₁ tip₂ : UInt32} {p : Parameters} {stake₁ stake₂ : Stake}
  {unbonding₁ unbonding₂ staking₁ staking₂ : LockedOutput}
  (m₁ : Merits r₁ input₁ output₁ inclusion tip₁ p stake₁ unbonding₁ staking₁)
  (m₂ : Merits r₂ input₂ output₂ inclusion tip₂ p stake₂ unbonding₂ staking₂)

include m₁ m₂

theorem Merits.stake_eq : stake₁ = stake₂ := by
  have h := m₁.recognised
  rw [m₂.recognised] at h
  exact (Except.ok.inj h).symm

theorem Merits.staking_eq : staking₁ = staking₂ := by
  have h := m₁.locked
  rw [m₁.stake_eq m₂, m₂.locked] at h
  exact (Except.ok.inj h).symm

theorem Merits.output_eq : output₁ = output₂ := by
  have hvalue : output₁.value = output₂.value := by
    have h₁ := m₁.paid
    have h₂ := m₂.paid
    rw [m₁.stake_eq m₂] at h₁
    apply UInt64.toNat_inj.mp
    omega
  have hunbonding : unbonding₁ = unbonding₂ := by
    have h := m₁.rebuilt
    rw [m₁.stake_eq m₂, hvalue, m₂.rebuilt] at h
    exact (Except.ok.inj h).symm
  have hscript : output₁.script = output₂.script := by
    rw [m₁.paysTo, m₂.paysTo, hunbonding]
  cases output₁
  cases output₂
  simp_all

end TwoRuns

theorem Grounds.Sustain.inclusion_eq {g : Grounds} {r : UnbondingRequest} {answers : Answers}
    {spent : OutPoint} {inclusion : Inclusion} (s : g.Sustain r answers)
    (spends : r.transaction.SpendsOnly spent)
    (included : answers (.transaction spent.txid r.stakingScript) = .ok inclusion) :
    g.inclusion = inclusion := by
  have hspent : g.input.previous = spent := spends g.input (by simp [s.shape.inputs])
  have h := s.included
  rw [hspent, included] at h
  exact (Except.ok.inj h).symm

variable {network₁ network₂ : Network} {r₁ r₂ : UnbondingRequest} {answers₁ answers₂ : Answers}
  {request₁ request₂ : SigningRequest}

/-- Two orders on the same outpoint never conflict. -/
theorem approved_unbonding_unique {spent : OutPoint} {inclusion : Inclusion}
    (spends₁ : r₁.transaction.SpendsOnly spent) (spends₂ : r₂.transaction.SpendsOnly spent)
    (included₁ : answers₁ (.transaction spent.txid r₁.stakingScript) = .ok inclusion)
    (included₂ : answers₂ (.transaction spent.txid r₂.stakingScript) = .ok inclusion)
    (parameters : answers₁ (.parameters inclusion.height.toUInt64) =
      answers₂ (.parameters inclusion.height.toUInt64))
    (approved₁ : Inquiry.signature request₁ ∈ asked answers₁ (sign network₁ r₁))
    (approved₂ : Inquiry.signature request₂ ∈ asked answers₂ (sign network₂ r₂)) :
    r₁.transaction = { r₂.transaction with version := r₁.transaction.version } ∧
      (r₁.transaction.version = 1 ∨ r₁.transaction.version = 2) ∧
      (r₂.transaction.version = 1 ∨ r₂.transaction.version = 2) ∧
      request₁.stakingOutput = request₂.stakingOutput ∧ request₁.path = request₂.path := by
  obtain ⟨g₁, path₁, s₁, revealed₁, rfl⟩ := (order_asked_iff _).mp approved₁
  obtain ⟨g₂, path₂, s₂, revealed₂, rfl⟩ := (order_asked_iff _).mp approved₂
  have hinclusion₁ := s₁.inclusion_eq spends₁ included₁
  have hinclusion₂ := s₂.inclusion_eq spends₂ included₂
  obtain ⟨input₁, output₁, inclusion₁, tip₁, p₁, stake₁, unbonding₁, staking₁⟩ := g₁
  obtain ⟨input₂, output₂, inclusion₂, tip₂, p₂, stake₂, unbonding₂, staking₂⟩ := g₂
  subst hinclusion₁ hinclusion₂
  have hp : p₁ = p₂ := Except.ok.inj (s₁.parameters.symm.trans (parameters.trans s₂.parameters))
  subst hp
  have hprevious : input₁.previous = input₂.previous :=
    (spends₁ input₁ (by simp [s₁.shape.inputs])).trans
      (spends₂ input₂ (by simp [s₂.shape.inputs])).symm
  have houtput := s₁.merits.output_eq s₂.merits
  have hstake := s₁.merits.stake_eq s₂.merits
  have hstaking := s₁.merits.staking_eq s₂.merits
  have hpath : path₁ = path₂ := by
    rw [hstaking, revealed₂] at revealed₁
    exact (Except.ok.inj revealed₁).symm
  refine ⟨?_, s₁.shape.version, s₂.shape.version, by rw [order, order, hstake], hpath⟩
  rw [s₁.shape.eq_mk, s₂.shape.eq_mk, hprevious, houtput]

end Policy

namespace Sample

open Policy

variable (version : Int32) (versions : version = 1 ∨ version = 2)

def signedRequest (nonce : ℕ) (key : PublicKey) : UnbondingRequest :=
  (unbound version versions).request
    (Schnorr.signWithNonce nonce pair (unbound version versions).digest) key

theorem approved (network : Network) (nonce : ℕ) (range : 0 < nonce ∧ nonce < Curve.n)
    {key : PublicKey} (member : key ∈ parameters.covenantKeys) {tip : UInt32}
    (mature : 209 ≤ tip.toNat) :
    ∃ request, Inquiry.signature request ∈
      asked (answers tip) (sign network (signedRequest version versions nonce key)) := by
  have planned := (unbound version versions).planned
  obtain ⟨path, revealed, -⟩ := LockedOutput.unbondingPath_eq_ok (Stake.plan_staking planned)
  have hmature : (200 : UInt32).toNat + parameters.confirmationDepth.toNat ≤ tip.toNat + 1 :=
    Nat.succ_le_succ mature
  have included : answers tip (.transaction (unbound version versions).staked.txid
      (staking 100000).script) = .ok ⟨(unbound version versions).staked, 200⟩ := rfl
  have hs := (unbound version versions).sustain honest_within member hmature
    (Schnorr.verify_signWithNonce range.1 range.2) included rfl rfl
  exact ⟨_, (order_asked_iff _).mpr ⟨_, path, hs, revealed, rfl⟩⟩

theorem unbound_spends : (unbound version versions).transaction.SpendsOnly
    ⟨(plan.within surroundings).txid, 1⟩ := by
  intro i hi
  rw [List.mem_singleton.mp hi]
  rfl

end Sample

namespace Policy

open Sample in
theorem sample_unbonding_unique :
    ∃ request₁ request₂,
      Inquiry.signature request₁ ∈
        asked (answers 209) (sign .signet (signedRequest 1 (.inl rfl) 5 ⟨first, false⟩)) ∧
      Inquiry.signature request₂ ∈
        asked (answers 500) (sign .main (signedRequest 2 (.inr rfl) 6 ⟨second, false⟩)) ∧
      (unbound 1 (.inl rfl)).transaction = { (unbound 2 (.inr rfl)).transaction with version := 1 } ∧
      request₁.stakingOutput = request₂.stakingOutput ∧ request₁.path = request₂.path := by
  have hfirst : (⟨first, false⟩ : PublicKey) ∈ parameters.covenantKeys := by decide
  have hsecond : (⟨second, false⟩ : PublicKey) ∈ parameters.covenantKeys := by decide
  have h209 : 209 ≤ (209 : UInt32).toNat := by decide
  have h500 : 209 ≤ (500 : UInt32).toNat := by decide
  obtain ⟨request₁, approved₁⟩ := approved 1 (.inl rfl) .signet 5 (by decide) hfirst h209
  obtain ⟨request₂, approved₂⟩ := approved 2 (.inr rfl) .main 6 (by decide) hsecond h500
  have hincluded : ∀ (tip : UInt32) (txid : Hash256) (script : Script), answers tip
      (.transaction txid script) = .ok ⟨plan.within surroundings, 200⟩ := fun _ _ _ => rfl
  obtain ⟨htransaction, -, -, houtput, hpath⟩ := approved_unbonding_unique
    (unbound_spends 1 (.inl rfl)) (unbound_spends 2 (.inr rfl)) (hincluded 209 _ _) (hincluded 500 _ _)
    rfl approved₁ approved₂
  exact ⟨request₁, request₂, approved₁, approved₂, htransaction, houtput, hpath⟩

end Policy

end Countersign
