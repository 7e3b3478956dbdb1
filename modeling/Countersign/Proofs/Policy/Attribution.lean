import Countersign.Proofs.Policy.HonestStake
import Countersign.Proofs.Staking.Recogniser

/-!
# Who answers for an error

Accepted parameters leave the scripts nothing to fail on: whatever committee passed the reading of a
file can be written into leaves. What remains is the tweak of the roots, a number that no file can
choose. So an error that the service takes the blame for comes from the node, from the backend, from a
stake older than the first version, or from a fee that no bound kept below the stake.
-/

set_option autoImplicit false

namespace Countersign

open Outcome

/-- What only terms, a tag or a tree that should never have been handed over run into. -/
inductive StakingError.Misuse : StakingError → Prop where
  | noKeys (group : KeyGroup) : Misuse (.noKeys group)
  | duplicateKey (group : KeyGroup) (key : XOnlyKey) : Misuse (.duplicateKey group key)
  | invalidQuorum (quorum : UInt32) (keys : ℕ) : Misuse (.invalidQuorum quorum keys)
  | invalidTagLength (length : ℕ) : Misuse (.invalidTagLength length)
  | missingLeaf : Misuse .missingLeaf
  | untweakable : Misuse .untweakable

namespace Policy

section Checks

variable {p : Parameters} {stake : Stake} {e : PolicyError}

theorem checkMember_eq_error {key : PublicKey} {height : UInt32} :
    checkMember p key height = .error e ↔ key ∉ p.covenantKeys ∧ .notMember key height = e := by
  simp only [checkMember, Parameters.isMember, require_eq_error, List.contains_iff_mem]

theorem checkMature_eq_error {txid : Hash256} {tip height : UInt32} :
    checkMature p txid tip height = .error e ↔
      tip.toNat + 1 < height.toNat + p.confirmationDepth.toNat ∧
        .tooFewConfirmations txid (confirmations tip height) p.confirmationDepth = e := by
  simp only [checkMature, confirmations_lt_iff]
  by_cases h : tip.toNat + 1 < height.toNat + p.confirmationDepth.toNat
  · simp [h]
  · simp [h]

theorem checkIndex_eq_error {spent : OutPoint} :
    checkIndex stake spent = .error e ↔
      spent.vout.toNat ≠ stake.stakingIndex ∧ .inputIndex stake.stakingIndex spent.vout = e :=
  require_eq_error

theorem checkBounds_eq_error :
    checkBounds p stake = .error e ↔
      ((stake.announcement.time < p.minTime ∨ stake.announcement.time > p.maxTime) ∧
        .timeOutOfBounds stake.announcement.time p.minTime p.maxTime = e) ∨
      ¬ (stake.announcement.time < p.minTime ∨ stake.announcement.time > p.maxTime) ∧
        (stake.stakingOutput.value < p.minAmount ∨ stake.stakingOutput.value > p.maxAmount) ∧
        .amountOutOfBounds stake.stakingOutput.value p.minAmount p.maxAmount = e := by
  unfold checkBounds
  by_cases ht : stake.announcement.time < p.minTime ∨ stake.announcement.time > p.maxTime
  · simp [ht]
  · by_cases ha : stake.stakingOutput.value < p.minAmount ∨ stake.stakingOutput.value > p.maxAmount
    · simp [ht, ha]
    · simp [ht, ha]

theorem remainder_eq_error {amount : Amount} :
    remainder p amount = .error e ↔ amount ≤ p.unbondingFee ∧ .valueTooLow amount p.unbondingFee = e := by
  unfold remainder
  by_cases h : p.unbondingFee < amount
  · simp [h, UInt64.not_le.mpr h]
  · simp [h, UInt64.not_lt.mp h]

end Checks

section Roots

variable (p : Parameters) (a : Announcement)

def stakingRoot : Hash256 :=
  (LockKind.staking.tree (Stake.announcedTerms a p.committee p.quorum).scripts).root

def unbondingRoot : Hash256 :=
  (LockKind.unbonding.tree
    { Stake.announcedTerms a p.committee p.quorum with lockTime := p.unbondingTime }.scripts).root

end Roots

/-- The roots that occur when this transaction is judged have their tweaks in range. -/
structure Tweakable (t : Transaction) (p : Parameters) : Prop where
  staking : ∀ a o i, Stake.Announced t p.tag.bytes a o i → a.tag.bytes = p.tag.bytes →
    ∃ key, Taproot.outputKey? unspendableKey (stakingRoot p a) = some key
  unbonding : ∀ stake, Stake.Recognised t p.tag.bytes p.committee p.quorum stake →
    ∃ key, Taproot.outputKey? unspendableKey (unbondingRoot p stake.announcement) = some key

/-- Tweaks are in range wherever an honest staker got as far as unbonding. -/
theorem Unbonding.tweakable {s : Staker} {p : Parameters} (u : Unbonding s p) :
    Tweakable u.staked p := by
  obtain ⟨hstaker, hprovider, htime⟩ := u.announced
  have hterms : Stake.announcedTerms u.plan.announcement p.committee p.quorum = s.terms p := by
    rw [Stake.announcedTerms, hstaker, hprovider, htime, Staker.terms]
  obtain ⟨locked, lockable, -⟩ := Stake.recognise_eq_ok_iff_recognised.mp
    (Stake.recognise_within (t := s.terms p) u.foreign u.planned)
  constructor
  · intro a o i announced _
    obtain rfl := announced.unique lockable.toAnnounced
    obtain ⟨-, -, key, hk, -⟩ := LockedOutput.build_eq_ok_iff.mp (Stake.plan_staking u.planned)
    exact ⟨key, by rw [stakingRoot, Stake.Plan.stake, hterms]; exact hk⟩
  · intro stake recognised
    obtain ⟨_, again, -⟩ := recognised
    rw [again.toAnnounced.unique lockable.toAnnounced]
    obtain ⟨-, -, key, hk, -⟩ := LockedOutput.build_eq_ok_iff.mp u.unbound
    exact ⟨key, by rw [unbondingRoot, Stake.Plan.stake, hterms]; exact hk⟩

section Scripts

variable {t : Transaction} {p : Parameters} (valid : p.Valid) (tweakable : Tweakable t p)

include valid tweakable

theorem staking_ne_error {a : Announcement} {o : TxOut} {i : ℕ} {value : Amount} {d : StakingError}
    (announced : Stake.Announced t p.tag.bytes a o i) (ours : a.tag.bytes = p.tag.bytes) :
    LockedOutput.build .staking (Stake.announcedTerms a p.committee p.quorum) value ≠ .error d := by
  obtain ⟨key, hk⟩ := tweakable.staking a o i announced ours
  exact LockedOutput.build_ne_error valid.committee (Leaves.quorate_singleton _) hk

theorem unbonding_ne_error {stake : Stake} {value : Amount} {d : StakingError}
    (recognised : Stake.Recognised t p.tag.bytes p.committee p.quorum stake) :
    LockedOutput.build .unbonding (unbondingTerms p stake) value ≠ .error d := by
  obtain ⟨key, hk⟩ := tweakable.unbonding stake recognised
  exact LockedOutput.build_ne_error valid.committee (Leaves.quorate_singleton _) hk

theorem fault_not_misuse {d : StakingError}
    (fault : Stake.Fault t p.tag.bytes p.committee p.quorum d) : ¬ d.Misuse := by
  intro misuse
  cases fault with
  | tagLength outputs other => exact other p.tag.length_eq
  | unlockable announced ours failed => exact staking_ne_error valid tweakable announced ours failed
  | fewOutputs few => cases misuse
  | unannounced eligible absent => cases misuse
  | announcedAgain eligible repeated => cases misuse
  | foreign announced other => cases misuse
  | unpaid lockable absent => cases misuse
  | paidAgain lockable repeated => cases misuse

end Scripts

/-- The request is at fault, and not for a stake that was never properly judged. -/
structure AtFault (e : PolicyError) : Prop where
  blamed : e.blame = .invalidRequest
  stake : ∀ d, e = .invalidStake d → ¬ d.Misuse

theorem AtFault.of_ne {e : PolicyError} (blamed : e.blame = .invalidRequest)
    (other : ∀ d, e ≠ .invalidStake d) : AtFault e :=
  ⟨blamed, fun d h => absurd h (other d)⟩

theorem AtFault.invalidStake {d : StakingError} (h : ¬ d.Misuse) : AtFault (.invalidStake d) := by
  refine ⟨rfl, ?_⟩
  intro _ he
  rwa [← PolicyError.invalidStake.inj he]

theorem judge_eq_error {network : Network} {r : UnbondingRequest} {input : TxIn} {output : TxOut}
    {inclusion : Inclusion} {tip : UInt32} {p : Parameters} {e : PolicyError} (valid : p.Valid)
    (tweakable : Tweakable inclusion.transaction p)
    (h : judge network r input output inclusion tip p = .error e) :
    AtFault e ∨ ∃ amount ≤ p.unbondingFee, e = .valueTooLow amount p.unbondingFee := by
  simp only [judge, bind_eq_error, guard_eq_error, mapError_eq_error, mapError_eq_ok, pure_ne_error,
    checkMember_eq_error, checkMature_eq_error, checkIndex_eq_error, remainder_eq_error,
    checkBounds_eq_error, Stake.recognise_eq_error, Stake.recognise_eq_ok_iff_recognised, ne_eq,
    Decidable.not_not, and_false, exists_false, or_false] at h
  rcases h with ⟨-, rfl⟩ | ⟨-, -, ⟨-, rfl⟩ | ⟨-, -, ⟨d, fault, rfl⟩ | ⟨stake, found, h⟩⟩⟩
  · exact Or.inl (.of_ne rfl (by simp))
  · exact Or.inl (.of_ne rfl (by simp))
  · exact Or.inl (.invalidStake (fault_not_misuse valid tweakable fault))
  -- from here on the transaction is a stake, whose roots are covered by the assumption
  rcases h with ⟨-, rfl⟩ | ⟨-, -, (⟨-, rfl⟩ | ⟨-, -, rfl⟩) | ⟨-, -, ⟨low, rfl⟩ | ⟨value, -, h⟩⟩⟩
  · exact Or.inl (.of_ne rfl (by simp))
  · exact Or.inl (.of_ne rfl (by simp))
  · exact Or.inl (.of_ne rfl (by simp))
  · exact Or.inr ⟨_, low, rfl⟩
  rcases h with ⟨d, failed, -⟩ | ⟨unbonding, -, ⟨-, rfl⟩ | ⟨-, h⟩⟩
  · exact absurd failed (unbonding_ne_error valid tweakable found)
  · exact Or.inl (.of_ne rfl (by simp))
  rcases h with ⟨d, failed, -⟩ | ⟨staking, built, ⟨d, failed, -⟩ | ⟨path, -, d, -, rfl⟩⟩
  · obtain ⟨_, lockable, -⟩ := found
    exact absurd failed (staking_ne_error valid tweakable lockable.toAnnounced lockable.ours)
  · obtain ⟨path, revealed, -⟩ := LockedOutput.unbondingPath_eq_ok built
    rw [revealed] at failed
    cases failed
  · exact Or.inl (.of_ne rfl (by simp))

def Included (r : UnbondingRequest) (answers : Answers) (inclusion : Inclusion) : Prop :=
  ∃ input, r.transaction.inputs = [input] ∧
    answers (.transaction input.previous.txid r.stakingScript) = .ok inclusion

/-- What the service answers for itself. -/
inductive Internal (s : Schedule) (r : UnbondingRequest) (answers : Answers) : PolicyError → Prop where
  | chain (e : ChainError) : Internal s r answers (.chain e)
  | early {inclusion : Inclusion} (included : Included r answers inclusion)
    (early : inclusion.height.toUInt64 < (s.versions.head s.nonempty).activationHeight) :
    Internal s r answers (.parameters (.notFound inclusion.height.toUInt64))
  | spent {amount fee : Amount} (low : amount ≤ fee) : Internal s r answers (.valueTooLow amount fee)
  | backend (e : BackendError) : Internal s r answers (.backend e)

section Verdicts

variable {α β : Type} {answers : Answers} {e : PolicyError}
  {f : α → ExceptT PolicyError (Dialogue Inquiries) β}

theorem verdict_settle_eq_error {x : Except PolicyError α} :
    verdict answers (settle x >>= f) = .error e ↔
      x = .error e ∨ ∃ a, x = .ok a ∧ verdict answers (f a) = .error e := by
  rw [verdict_settle, bind_eq_error]

theorem verdict_consult_eq_error {q : Inquiry} {accept : q.Answer → Except PolicyError α} :
    verdict answers (consult q accept >>= f) = .error e ↔
      accept (answers q) = .error e ∨
        ∃ a, accept (answers q) = .ok a ∧ verdict answers (f a) = .error e := by
  rw [verdict_consult, bind_eq_error]

end Verdicts

section Signing

variable {text : String} {s : Schedule} {network : Network} {r : UnbondingRequest} {answers : Answers}
  {e : PolicyError} (accepted : Schedule.parse text = .ok s)
  (retrieved : ∀ height, answers (.parameters height) = s.parametersAt height)
  (tweakable : ∀ inclusion p, Included r answers inclusion →
    s.parametersAt inclusion.height.toUInt64 = .ok p → Tweakable inclusion.transaction p)

theorem ofLookup_attributed (c : ChainError) :
    AtFault (.ofLookup c) ∨ Internal s r answers (.ofLookup c) := by
  cases c with
  | notFound txid => exact Or.inl (.of_ne rfl (by simp [PolicyError.ofLookup]))
  | notInChain txid => exact Or.inl (.of_ne rfl (by simp [PolicyError.ofLookup]))
  | node e => exact Or.inr (.chain _)
  | task text => exact Or.inr (.chain _)

include accepted retrieved tweakable

theorem sign_eq_error (refused : verdict answers (sign network r) = .error e) :
    AtFault e ∨ Internal s r answers e := by
  unfold sign at refused
  rcases verdict_settle_eq_error.mp refused with h | ⟨⟨input, output⟩, shape, refused⟩
  · obtain ⟨d, -, rfl⟩ := mapError_eq_error.mp h
    exact Or.inl (.of_ne rfl (by simp))
  have hinputs := (Transaction.awaitingSignature_eq_ok.mp (mapError_eq_ok.mp shape)).inputs
  rcases verdict_settle_eq_error.mp refused with h | ⟨_, -, refused⟩
  · obtain ⟨-, rfl⟩ := require_eq_error.mp h
    exact Or.inl (.of_ne rfl (by simp))
  rcases verdict_consult_eq_error.mp refused with h | ⟨inclusion, found, refused⟩
  · obtain ⟨c, -, rfl⟩ := mapError_eq_error.mp h
    exact ofLookup_attributed c
  have included : Included r answers inclusion := ⟨input, hinputs, mapError_eq_ok.mp found⟩
  rcases verdict_consult_eq_error.mp refused with h | ⟨tip, -, refused⟩
  · obtain ⟨c, -, rfl⟩ := mapError_eq_error.mp h
    exact Or.inr (.chain c)
  rcases verdict_consult_eq_error.mp refused with h | ⟨p, known, refused⟩
  · obtain ⟨d, hd, rfl⟩ := mapError_eq_error.mp h
    obtain ⟨early, rfl⟩ := Schedule.parametersAt_eq_error.mp ((retrieved _).symm.trans hd)
    exact Or.inr (.early included early)
  have hp := (retrieved _).symm.trans (mapError_eq_ok.mp known)
  rcases verdict_settle_eq_error.mp refused with h | ⟨request, -, refused⟩
  · have valid := Schedule.parametersAt_valid accepted hp
    rcases judge_eq_error valid (tweakable inclusion p included hp) h with h | ⟨amount, low, rfl⟩
    · exact Or.inl h
    · exact Or.inr (.spent low)
  · obtain ⟨b, -, rfl⟩ := mapError_eq_error.mp ((verdict_last answers).symm.trans refused)
    exact Or.inr (.backend b)

/-- With an accepted file no error speaks of scripts that cannot be made, and whatever the service has
to answer for has a cause outside of its parameters. -/
theorem errors_attributed (refused : verdict answers (sign network r) = .error e) :
    (∀ d, e ≠ .scriptReconstruction d) ∧
    (∀ d, e = .invalidStake d → ¬ d.Misuse) ∧
    (e.blame = .internal → Internal s r answers e) := by
  rcases sign_eq_error accepted retrieved tweakable refused with h | h
  · refine ⟨?_, h.stake, ?_⟩
    · rintro d rfl
      cases h.blamed
    · intro internal
      rw [h.blamed] at internal
      cases internal
  · refine ⟨?_, ?_, fun _ => h⟩
    · rintro d rfl
      cases h
    · rintro d rfl
      cases h

end Signing

end Policy

namespace Sample

open Policy

/-- The stake is on the chain and mature, and the backend comes back without a signature. -/
def unsigned : Answers
  | .transaction _ _ => .ok ⟨plan.within surroundings, 200⟩
  | .tip => .ok 209
  | .parameters height => schedule.parametersAt height
  | .signature _ => .error .missingSignature

def request : UnbondingRequest :=
  (unbound 2 (.inr rfl)).request
    (Schnorr.signWith (List.replicate 32 0) pair (unbound 2 (.inr rfl)).digest) ⟨first, false⟩

theorem parametersAt_included : schedule.parametersAt (200 : UInt32).toUInt64 = .ok parameters :=
  Schedule.parametersAt_of_governs (version_governs (by decide))

theorem unsigned_tweakable (inclusion : Inclusion) (p : Parameters)
    (included : Included request unsigned inclusion)
    (known : schedule.parametersAt inclusion.height.toUInt64 = .ok p) :
    Tweakable inclusion.transaction p := by
  obtain ⟨_, -, found⟩ := included
  cases found
  rw [parametersAt_included] at known
  obtain rfl : parameters = p := Except.ok.inj known
  exact (unbound 2 (.inr rfl)).tweakable

theorem unsigned_refused :
    verdict unsigned (sign .signet request) = .error (.backend .missingSignature) := by
  have member : (⟨first, false⟩ : PublicKey) ∈ parameters.covenantKeys := by decide
  have mature : (200 : UInt32).toNat + parameters.confirmationDepth.toNat ≤
      (209 : UInt32).toNat + 1 := by decide
  have sustained : ((unbound 2 (.inr rfl)).grounds 200 209).Sustain request unsigned :=
    (unbound 2 (.inr rfl)).sustain honest_within member mature
      (Schnorr.verify_signWith unbound_nonce) rfl rfl parametersAt_included
  obtain ⟨path, revealed, -⟩ := LockedOutput.unbondingPath_eq_ok sustained.merits.locked
  exact verdict_of_sustain sustained revealed

end Sample

namespace Policy

open Sample in
theorem sample_error_attributed :
    verdict unsigned (sign .signet request) = .error (.backend .missingSignature) ∧
    (∀ d, PolicyError.backend .missingSignature ≠ .scriptReconstruction d) ∧
    (∀ d, PolicyError.backend .missingSignature = .invalidStake d → ¬ d.Misuse) ∧
    Internal schedule request unsigned (.backend .missingSignature) := by
  obtain ⟨hscripts, hstake, hinternal⟩ :=
    errors_attributed schedule_accepted (fun _ => rfl) unsigned_tweakable unsigned_refused
  exact ⟨unsigned_refused, hscripts, hstake, hinternal rfl⟩

end Policy

end Countersign
