import Countersign.Proofs.Curve.Signing
import Countersign.Proofs.Params.Validity
import Countersign.Proofs.Policy.Approval
import Countersign.Proofs.Staking.Recognition

/-!
# Honest stakes are served

A staker who stays within the parameters, pays what `Stake.plan` says, waits and then signs the
transaction that pays the stake but for the fee into the unbonding output gives the policy every ground
it wants. What else the staking transaction does is of no concern, and so is who else would be served.
-/

set_option autoImplicit false

namespace Countersign

open Outcome

def Transaction.signSpendWith (aux : Bytes) (t : Transaction) (funding : TxOut) (pair : KeyPair)
    (leafHash : Hash256) : Except StakingError Signature := do
  return Schnorr.signWith aux pair (← t.spendDigest funding leafHash)

theorem Transaction.signSpend_eq (t : Transaction) (funding : TxOut) (pair : KeyPair)
    (leafHash : Hash256) :
    t.signSpend funding pair leafHash =
      t.signSpendWith (List.replicate 32 0) funding pair leafHash := by
  simp only [signSpend, signSpendWith, Schnorr.sign_eq_signWith]

namespace Policy

structure Staker where
  pair : KeyPair
  finalityProvider : XOnlyKey
  time : UInt16
  amount : Amount

namespace Staker

variable (s : Staker) (p : Parameters)

structure Within : Prop where
  time : p.minTime ≤ s.time ∧ s.time ≤ p.maxTime
  amount : p.minAmount ≤ s.amount ∧ s.amount ≤ p.maxAmount
  fee : p.unbondingFee < s.amount

def terms : Terms :=
  Stake.terms s.pair.publicKey.xOnly s.finalityProvider p.committee p.quorum s.time

def plan : Except StakingError Stake.Plan :=
  Stake.plan p.tag.bytes (s.terms p) s.finalityProvider s.amount

def unbondingOutput : Except StakingError LockedOutput :=
  LockedOutput.build .unbonding { s.terms p with lockTime := p.unbondingTime }
    (s.amount - p.unbondingFee)

end Staker

section Building

variable {s : Staker} {p : Parameters} (committee : Leaves.Quorate p.committee p.quorum)
  {e : StakingError}

include committee

theorem terms_leaves (lockTime : UInt16) :
    Terms.leaves { s.terms p with lockTime := lockTime } =
      .ok { s.terms p with lockTime := lockTime }.scripts :=
  Terms.leaves_of_quorate committee rfl

theorem plan_untweakable (h : s.plan p = .error e) : e = .untweakable :=
  Stake.plan_error (terms_leaves committee s.time) h

theorem unbonding_untweakable (h : s.unbondingOutput p = .error e) : e = .untweakable :=
  LockedOutput.build_error (terms_leaves committee p.unbondingTime) h

end Building

/-- An honest way from a plan to an unbonding: the staking transaction has the planned outputs among
others that are foreign to the plan, and the unbonding transaction has one of the two versions. -/
structure Unbonding (s : Staker) (p : Parameters) where
  plan : Stake.Plan
  planned : s.plan p = .ok plan
  output : LockedOutput
  unbound : s.unbondingOutput p = .ok output
  surroundings : Stake.Surroundings
  foreign : surroundings.Foreign plan
  vout : UInt32
  index : vout.toNat = surroundings.before.length
  version : Int32
  versions : version = 1 ∨ version = 2

namespace Unbonding

variable {s : Staker} {p : Parameters} (u : Unbonding s p)

def staked : Transaction := u.plan.within u.surroundings

def input : TxIn := ⟨⟨u.staked.txid, u.vout⟩, [], 0xffffffff, []⟩

def transaction : Transaction := ⟨u.version, [u.input], [u.output.txOut], 0⟩

def digest : Bytes :=
  Sighash.digest u.transaction u.input u.plan.staking.txOut
    (Taproot.leafHash u.plan.staking.leaves.unbonding)

theorem output_value : u.output.value = s.amount - p.unbondingFee :=
  LockedOutput.build_value u.unbound

theorem staking_value : u.plan.staking.value = s.amount :=
  LockedOutput.build_value (Stake.plan_staking u.planned)

theorem announced :
    u.plan.announcement.staker = s.pair.publicKey.xOnly ∧
      u.plan.announcement.finalityProvider = s.finalityProvider ∧
      u.plan.announcement.time = s.time := by
  obtain ⟨mark, -, h⟩ := Stake.plan_announcement u.planned
  rw [h]
  exact ⟨rfl, rfl, rfl⟩

section Fee

variable (fee : p.unbondingFee < s.amount)

include fee

theorem paid : u.output.value.toNat + p.unbondingFee.toNat = s.amount.toNat := by
  have h : remainder p s.amount = .ok (s.amount - p.unbondingFee) := by rw [remainder, if_pos fee]
  rw [u.output_value]
  exact (remainder_eq_ok.mp h).2

theorem shape : u.transaction.AwaitsSignature u.input u.output.txOut := by
  refine ⟨rfl, rfl, ?_, rfl, rfl, rfl, rfl, u.versions⟩
  intro h
  have hpaid := u.paid fee
  have hlt := UInt64.lt_iff_toNat_lt.mp fee
  rw [show u.output.value = 0 from h, UInt64.toNat_zero] at hpaid
  omega

end Fee

def grounds (height tip : UInt32) : Grounds where
  input := u.input
  output := u.output.txOut
  inclusion := ⟨u.staked, height⟩
  tip := tip
  parameters := p
  stake := u.plan.stake u.surroundings
  unbonding := u.output
  staking := u.plan.staking

def request (signature : Signature) (key : PublicKey) : UnbondingRequest :=
  ⟨u.plan.staking.script, u.transaction, signature, key⟩

section Grounds

variable {signature : Signature} {key : PublicKey} {height tip : UInt32} (within : s.Within p)
  (member : key ∈ p.covenantKeys)
  (mature : height.toNat + p.confirmationDepth.toNat ≤ tip.toNat + 1)
  (signed : Schnorr.verify s.pair.publicKey.xOnly u.digest signature = true)

include within member mature signed

/-- All that is asked of a request follows from the plan, once the stake is deep enough. -/
theorem merits :
    Merits (u.request signature key) u.input u.output.txOut ⟨u.staked, height⟩ tip p
      (u.plan.stake u.surroundings) u.output u.plan.staking := by
  obtain ⟨hstaker, hprovider, htime⟩ := u.announced
  have hvalue := u.staking_value
  have hlocked := Stake.plan_staking u.planned
  have hrecognised : Stake.recognise u.staked p.tag.bytes p.committee p.quorum =
      .ok (u.plan.stake u.surroundings) :=
    Stake.recognise_within (t := s.terms p) u.foreign u.planned
  refine ⟨member, mature, hrecognised, u.index.symm, ?_, ?_, ?_, ?_, ?_, rfl, ?_, ?_⟩
  · rw [Stake.Plan.stake, htime]
    exact within.time
  · rw [Stake.Plan.stake, LockedOutput.txOut, hvalue]
    exact within.amount
  · rw [Stake.Plan.stake, LockedOutput.txOut, hvalue]
    exact within.fee
  · rw [Stake.Plan.stake, hstaker, hprovider, LockedOutput.txOut, u.output_value]
    exact u.unbound
  · rw [Stake.Plan.stake, LockedOutput.txOut, LockedOutput.txOut, hvalue]
    exact u.paid within.fee
  · rw [Stake.Plan.stake, hstaker, hprovider, htime, LockedOutput.txOut, hvalue]
    exact hlocked
  · rw [Stake.Plan.stake, hstaker]
    exact signed

theorem sustain {answers : Answers}
    (included : answers (.transaction u.staked.txid u.plan.staking.script) = .ok ⟨u.staked, height⟩)
    (tops : answers .tip = .ok tip) (parameters : answers (.parameters height.toUInt64) = .ok p) :
    (u.grounds height tip).Sustain (u.request signature key) answers :=
  ⟨u.shape within.fee, ⟨_, u.plan.staking.outputKey.xOnly.bytes_length, rfl⟩, included, tops, parameters,
    u.merits within member mature signed⟩

end Grounds

end Unbonding

end Policy

namespace Sample

open Policy

def pair : KeyPair := ⟨⟨4, by decide, by decide⟩, ⟨staker, false⟩, by decide +kernel⟩

def honest : Staker := ⟨pair, provider, 1000, 100000⟩

theorem honest_within : honest.Within parameters := by
  constructor
  · decide
  · decide
  · decide

def announcement : Announcement := ⟨tag, 0, staker, provider, 1000⟩

def plan : Stake.Plan :=
  ⟨staking 100000, announcement, ⟨2, [], [(staking 100000).txOut, announcement.txOut], 0⟩⟩

def surroundings : Stake.Surroundings :=
  ⟨[⟨⟨⟨List.replicate 32 7, rfl⟩, 0⟩, [], 0xffffffff, []⟩], [⟨5000, [0x51]⟩], [], []⟩

theorem surroundings_foreign : surroundings.Foreign plan := by
  intro o ho
  rw [List.mem_singleton.mp ho]
  constructor
  · intro h
    obtain ⟨a, ha⟩ := h
    cases ha
  · intro hp
    cases hp

def unbound (version : Int32) (versions : version = 1 ∨ version = 2) :
    Unbonding honest parameters where
  plan := plan
  planned := Stake.plan_eq_ok.mpr ⟨staking 100000, tag, staking_built 100000, rfl, rfl⟩
  output := unbonding 99000
  unbound := unbonding_built 99000
  surroundings := surroundings
  foreign := surroundings_foreign
  vout := 1
  index := rfl
  version := version
  versions := versions

theorem version_two : (2 : Int32) = 1 ∨ (2 : Int32) = 2 := .inr rfl

theorem unbound_nonce :
    Schnorr.nonce (List.replicate 32 0) pair (unbound 2 (.inr rfl)).digest ≠ 0 := by
  decide +kernel

def approval : Signature := ⟨List.replicate 64 1, rfl⟩

def answers (tip : UInt32) : Answers
  | .transaction _ _ => .ok ⟨plan.within surroundings, 200⟩
  | .tip => .ok tip
  | .parameters height => schedule.parametersAt height
  | .signature _ => .ok approval

end Sample

namespace Policy

/-- Whoever stakes and unbonds by the rules is served, whatever parameters were accepted and whichever
of them govern, by every member of the committee and on every network. -/
theorem honest_stake_served {text : String} {schedule : Schedule} {version : ParametersVersion}
    {s : Staker} {key : PublicKey} {height tip : UInt32}
    (accepted : Schedule.parse text = .ok schedule)
    (governs : schedule.Governs height.toUInt64 version)
    (within : s.Within version.parameters) (member : key ∈ version.parameters.covenantKeys)
    (mature : height.toNat + version.parameters.confirmationDepth.toNat ≤ tip.toNat + 1) :
    (∀ e, s.plan version.parameters = .error e → e = .untweakable) ∧
    (∀ e, s.unbondingOutput version.parameters = .error e → e = .untweakable) ∧
    ∀ (u : Unbonding s version.parameters) (aux : Bytes), Schnorr.nonce aux s.pair u.digest ≠ 0 →
      ∃ path signature, u.plan.staking.unbondingPath = .ok path ∧
        u.transaction.signSpendWith aux u.plan.staking.txOut s.pair path.leafHash = .ok signature ∧
        ∀ (network : Network) (answers : Answers),
          answers (.transaction u.staked.txid u.plan.staking.script) = .ok ⟨u.staked, height⟩ →
          answers .tip = .ok tip →
          answers (.parameters height.toUInt64) = schedule.parametersAt height.toUInt64 →
          asked answers (sign network (u.request signature key)) =
            [.transaction u.staked.txid u.plan.staking.script, .tip, .parameters height.toUInt64,
              .signature ⟨u.plan.staking.txOut, u.transaction, key, network.keyHashAddress key, path⟩] ∧
          verdict answers (sign network (u.request signature key)) =
            Except.mapError .backend (answers (.signature
              ⟨u.plan.staking.txOut, u.transaction, key, network.keyHashAddress key, path⟩)) := by
  have committee := (Schedule.valid_of_parse accepted version governs.mem).committee
  refine ⟨fun e => plan_untweakable committee, fun e => unbonding_untweakable committee, ?_⟩
  intro u aux hnonce
  obtain ⟨path, revealed, hscript⟩ :=
    LockedOutput.unbondingPath_eq_ok (Stake.plan_staking u.planned)
  refine ⟨path, Schnorr.signWith aux s.pair u.digest, revealed, ?_, ?_⟩
  · rw [Transaction.signSpendWith, (u.shape within.fee).spendDigest, RevealedLeaf.leafHash, hscript]
    rfl
  · intro network answers included tops parameters
    rw [Schedule.parametersAt_of_governs governs] at parameters
    have hs := u.sustain within member mature (Schnorr.verify_signWith hnonce) included tops parameters
    exact ⟨asked_of_sustain hs revealed, verdict_of_sustain hs revealed⟩

open Sample in
theorem sample_stake_served :
    ∃ path signature, (staking 100000).unbondingPath = .ok path ∧
      (unbound 2 (.inr rfl)).transaction.signSpendWith (List.replicate 32 0) (staking 100000).txOut pair
        path.leafHash = .ok signature ∧
      asked (answers 209) (sign .signet ((unbound 2 (.inr rfl)).request signature ⟨first, false⟩)) =
        [.transaction (plan.within surroundings).txid (staking 100000).script, .tip, .parameters 200,
          .signature ⟨(staking 100000).txOut, (unbound 2 (.inr rfl)).transaction, ⟨first, false⟩,
            Network.signet.keyHashAddress ⟨first, false⟩, path⟩] ∧
      verdict (answers 209) (sign .signet ((unbound 2 (.inr rfl)).request signature ⟨first, false⟩)) =
        .ok approval := by
  have hmember : (⟨first, false⟩ : PublicKey) ∈ version.parameters.covenantKeys := by decide
  have hmature : (200 : UInt32).toNat + version.parameters.confirmationDepth.toNat ≤
      (209 : UInt32).toNat + 1 := by decide
  obtain ⟨-, -, h⟩ := honest_stake_served schedule_accepted (version_governs (by decide))
    honest_within hmember hmature
  obtain ⟨path, signature, revealed, signed, served⟩ :=
    h (unbound 2 (.inr rfl)) (List.replicate 32 0) unbound_nonce
  obtain ⟨hasked, hverdict⟩ := served .signet (answers 209) rfl rfl rfl
  exact ⟨path, signature, revealed, signed, hasked, hverdict⟩

end Policy

end Countersign
