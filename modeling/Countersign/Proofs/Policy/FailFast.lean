import Countersign.Proofs.Policy.Attribution

/-!
# The policy fails fast

Each step of the policy is given by the condition under which it fails, whatever the others do. Signing
reports the first step that fails, asks what the steps up to that one ask and nothing else, and blames
the caller unless that step is the service's own.
-/

set_option autoImplicit false

namespace Countersign

open Outcome

inductive ChainError.Absent : ChainError → Prop where
  | notFound (txid : Hash256) : Absent (.notFound txid)
  | notInChain (txid : Hash256) : Absent (.notInChain txid)

namespace Policy

inductive Step where
  | shape (check : Transaction.Check)
  | taproot
  | lookup
  | tip
  | parameters
  | membership
  | confirmations
  | recognition
  | index
  | time
  | amount
  | fee
  | unbondingScript
  | output
  | stakingScript
  | stakerSignature
  | backend
  deriving DecidableEq, Repr

namespace Step

def judged : List Step :=
  [membership, confirmations, recognition, index, time, amount, fee, unbondingScript, output,
    stakingScript, stakerSignature]

def inOrder : List Step :=
  Transaction.Check.inOrder.map shape ++ taproot :: lookup :: tip :: parameters :: (judged ++ [backend])

def consults : Step → Bool
  | lookup => true
  | tip => true
  | parameters => true
  | backend => true
  | _ => false

/-- The steps whose failure the service answers for, whatever the reason. -/
def own : List Step := [tip, parameters, fee, unbondingScript, stakingScript, backend]

end Step

section Conditions

variable (network : Network) (r : UnbondingRequest) (answers : Answers)

structure Governed (inclusion : Inclusion) (p : Parameters) : Prop where
  included : Included r answers inclusion
  governs : answers (.parameters inclusion.height.toUInt64) = .ok p

structure Staked (inclusion : Inclusion) (p : Parameters) (stake : Stake) : Prop
    extends Governed r answers inclusion p where
  recognised : Stake.recognise inclusion.transaction p.tag.bytes p.committee p.quorum = .ok stake

structure Relocked (inclusion : Inclusion) (p : Parameters) (stake : Stake) (staking : LockedOutput) : Prop
    extends Staked r answers inclusion p stake where
  built : LockedOutput.build .staking (Stake.announcedTerms stake.announcement p.committee p.quorum)
    stake.stakingOutput.value = .ok staking

def Ordered (request : SigningRequest) : Prop :=
  ∃ inclusion p stake staking path, Relocked r answers inclusion p stake staking ∧
    staking.unbondingPath = .ok path ∧ request = order network r stake path

def LookupFails (e : ChainError) : Prop :=
  ∃ input, r.transaction.inputs = [input] ∧
    answers (.transaction input.previous.txid r.stakingScript) = .error e

/-- A step fails, whatever becomes of the others. -/
inductive Fails : Step → PolicyError → Prop where
  | shape {check : Transaction.Check} {e : StakingError} (violates : r.transaction.Violates check e) :
    Fails (.shape check) (.malformedTransaction e)
  | taproot (other : ¬ ∃ key : Bytes, key.length = 32 ∧ r.stakingScript = 0x51 :: 0x20 :: key) :
    Fails .taproot .notTaproot
  | absent {e : ChainError} (fails : LookupFails r answers e) (absent : e.Absent) :
    Fails .lookup (.stakeUnavailable e)
  | lookup {e : ChainError} (fails : LookupFails r answers e) (other : ¬ e.Absent) :
    Fails .lookup (.chain e)
  | tip {e : ChainError} (fails : answers .tip = .error e) : Fails .tip (.chain e)
  | parameters {inclusion : Inclusion} {e : ParamsError} (included : Included r answers inclusion)
    (fails : answers (.parameters inclusion.height.toUInt64) = .error e) :
    Fails .parameters (.parameters e)
  | membership {inclusion : Inclusion} {p : Parameters} (governed : Governed r answers inclusion p)
    (stranger : r.covenantKey ∉ p.covenantKeys) :
    Fails .membership (.notMember r.covenantKey inclusion.height)
  | confirmations {input : TxIn} {inclusion : Inclusion} {p : Parameters} {tip : UInt32}
    (inputs : r.transaction.inputs = [input]) (governed : Governed r answers inclusion p)
    (top : answers .tip = .ok tip)
    (immature : (tip.toNat - inclusion.height.toNat + 1 : ℤ) < p.confirmationDepth.toNat) :
    Fails .confirmations (.tooFewConfirmations input.previous.txid
      (tip.toNat - inclusion.height.toNat + 1) p.confirmationDepth)
  | recognition {inclusion : Inclusion} {p : Parameters} {e : StakingError}
    (governed : Governed r answers inclusion p)
    (fault : Stake.Fault inclusion.transaction p.tag.bytes p.committee p.quorum e) :
    Fails .recognition (.invalidStake e)
  | index {input : TxIn} {inclusion : Inclusion} {p : Parameters} {stake : Stake}
    (inputs : r.transaction.inputs = [input]) (staked : Staked r answers inclusion p stake)
    (other : input.previous.vout.toNat ≠ stake.stakingIndex) :
    Fails .index (.inputIndex stake.stakingIndex input.previous.vout)
  | time {inclusion : Inclusion} {p : Parameters} {stake : Stake}
    (staked : Staked r answers inclusion p stake)
    (out : stake.announcement.time < p.minTime ∨ p.maxTime < stake.announcement.time) :
    Fails .time (.timeOutOfBounds stake.announcement.time p.minTime p.maxTime)
  | amount {inclusion : Inclusion} {p : Parameters} {stake : Stake}
    (staked : Staked r answers inclusion p stake)
    (out : stake.stakingOutput.value < p.minAmount ∨ p.maxAmount < stake.stakingOutput.value) :
    Fails .amount (.amountOutOfBounds stake.stakingOutput.value p.minAmount p.maxAmount)
  | fee {inclusion : Inclusion} {p : Parameters} {stake : Stake}
    (staked : Staked r answers inclusion p stake) (spent : stake.stakingOutput.value ≤ p.unbondingFee) :
    Fails .fee (.valueTooLow stake.stakingOutput.value p.unbondingFee)
  | unbondingScript {inclusion : Inclusion} {p : Parameters} {stake : Stake} {value : Amount}
    {e : StakingError} (staked : Staked r answers inclusion p stake)
    (left : value.toNat + p.unbondingFee.toNat = stake.stakingOutput.value.toNat)
    (fails : LockedOutput.build .unbonding (unbondingTerms p stake) value = .error e) :
    Fails .unbondingScript (.scriptReconstruction e)
  | output {output : TxOut} {inclusion : Inclusion} {p : Parameters} {stake : Stake} {value : Amount}
    {unbonding : LockedOutput} (outputs : r.transaction.outputs = [output])
    (staked : Staked r answers inclusion p stake)
    (left : value.toNat + p.unbondingFee.toNat = stake.stakingOutput.value.toNat)
    (built : LockedOutput.build .unbonding (unbondingTerms p stake) value = .ok unbonding)
    (other : output ≠ unbonding.txOut) : Fails .output .outputMismatch
  | stakingScript {inclusion : Inclusion} {p : Parameters} {stake : Stake} {e : StakingError}
    (staked : Staked r answers inclusion p stake)
    (fails : LockedOutput.build .staking
      (Stake.announcedTerms stake.announcement p.committee p.quorum) stake.stakingOutput.value =
        .error e) :
    Fails .stakingScript (.scriptReconstruction e)
  | stakerSignature {input : TxIn} {inclusion : Inclusion} {p : Parameters} {stake : Stake}
    {staking : LockedOutput} (inputs : r.transaction.inputs = [input])
    (relocked : Relocked r answers inclusion p stake staking)
    (unsigned : Schnorr.verify stake.announcement.staker
      (Sighash.digest r.transaction input stake.stakingOutput
        (Taproot.leafHash staking.leaves.unbonding)) r.stakerSignature = false) :
    Fails .stakerSignature (.invalidStakerSignature .invalidSignature)
  | backend {request : SigningRequest} {e : BackendError} (ordered : Ordered network r answers request)
    (fails : answers (.signature request) = .error e) : Fails .backend (.backend e)

/-- What a step asks, and whom. -/
inductive Asks : Step → Inquiry → Prop where
  | lookup {input : TxIn} (inputs : r.transaction.inputs = [input]) :
    Asks .lookup (.transaction input.previous.txid r.stakingScript)
  | tip : Asks .tip .tip
  | parameters {inclusion : Inclusion} (included : Included r answers inclusion) :
    Asks .parameters (.parameters inclusion.height.toUInt64)
  | backend {request : SigningRequest} (ordered : Ordered network r answers request) :
    Asks .backend (.signature request)

end Conditions

section Unique

variable {network : Network} {r : UnbondingRequest} {answers : Answers} {inclusion other : Inclusion}
  {p q : Parameters} {stake again : Stake} {staking relocked : LockedOutput}

theorem Included.unique (h : Included r answers inclusion) (k : Included r answers other) :
    inclusion = other := by
  obtain ⟨input, inputs, found⟩ := h
  obtain ⟨_, inputs', found'⟩ := k
  obtain rfl := Transaction.sole_unique inputs inputs'
  exact Except.ok.inj (found.symm.trans found')

theorem Governed.unique (h : Governed r answers inclusion p) (k : Governed r answers other q) :
    inclusion = other ∧ p = q := by
  obtain rfl := h.included.unique k.included
  exact ⟨rfl, Except.ok.inj (h.governs.symm.trans k.governs)⟩

theorem Staked.unique (h : Staked r answers inclusion p stake) (k : Staked r answers other q again) :
    inclusion = other ∧ p = q ∧ stake = again := by
  obtain ⟨rfl, rfl⟩ := h.toGoverned.unique k.toGoverned
  exact ⟨rfl, rfl, Except.ok.inj (h.recognised.symm.trans k.recognised)⟩

theorem Relocked.unique (h : Relocked r answers inclusion p stake staking)
    (k : Relocked r answers other q again relocked) :
    inclusion = other ∧ p = q ∧ stake = again ∧ staking = relocked := by
  obtain ⟨rfl, rfl, rfl⟩ := h.toStaked.unique k.toStaked
  exact ⟨rfl, rfl, rfl, Except.ok.inj (h.built.symm.trans k.built)⟩

theorem Ordered.unique {request request' : SigningRequest} (h : Ordered network r answers request)
    (k : Ordered network r answers request') : request = request' := by
  obtain ⟨inclusion, p, stake, staking, path, relocked, revealed, rfl⟩ := h
  obtain ⟨_, _, _, _, path', relocked', revealed', rfl⟩ := k
  obtain ⟨-, -, rfl, rfl⟩ := relocked.unique relocked'
  obtain rfl := Except.ok.inj (revealed.symm.trans revealed')
  rfl

end Unique

theorem left_unique {total fee value other : Amount} (left : value.toNat + fee.toNat = total.toNat)
    (left' : other.toNat + fee.toNat = total.toNat) : value = other := by
  apply UInt64.toNat_inj.mp
  omega

section Judging

variable {network : Network} {r : UnbondingRequest} {answers : Answers} {input : TxIn} {output : TxOut}
  {inclusion : Inclusion} {p : Parameters} {tip : UInt32} {stake : Stake} {e : PolicyError}

section Inclusion

variable (governed : Governed r answers inclusion p)

include governed

theorem membership_fails_iff :
    checkMember p r.covenantKey inclusion.height = .error e ↔ Fails network r answers .membership e := by
  rw [checkMember_eq_error]
  constructor
  · rintro ⟨stranger, rfl⟩
    exact .membership governed stranger
  · intro h
    cases h with
    | membership again stranger =>
      obtain ⟨rfl, rfl⟩ := governed.unique again
      exact ⟨stranger, rfl⟩

theorem confirmations_fails_iff (inputs : r.transaction.inputs = [input]) (top : answers .tip = .ok tip) :
    checkMature p input.previous.txid tip inclusion.height = .error e ↔
      Fails network r answers .confirmations e := by
  rw [checkMature_eq_error, ← confirmations_lt_iff]
  constructor
  · rintro ⟨immature, rfl⟩
    exact .confirmations inputs governed top immature
  · intro h
    cases h with
    | confirmations inputs' again top' immature =>
      obtain ⟨rfl, rfl⟩ := governed.unique again
      obtain rfl := Transaction.sole_unique inputs inputs'
      obtain rfl := Except.ok.inj (top.symm.trans top')
      exact ⟨immature, rfl⟩

theorem recognition_fails_iff :
    (Stake.recognise inclusion.transaction p.tag.bytes p.committee p.quorum).mapError .invalidStake =
      .error e ↔ Fails network r answers .recognition e := by
  rw [mapError_eq_error]
  simp only [Stake.recognise_eq_error]
  constructor
  · rintro ⟨d, fault, rfl⟩
    exact .recognition governed fault
  · intro h
    cases h with
    | recognition again fault =>
      obtain ⟨rfl, rfl⟩ := governed.unique again
      exact ⟨_, fault, rfl⟩

end Inclusion

section Stakes

variable (staked : Staked r answers inclusion p stake)

include staked

theorem index_fails_iff (inputs : r.transaction.inputs = [input]) :
    checkIndex stake input.previous = .error e ↔ Fails network r answers .index e := by
  rw [checkIndex_eq_error]
  constructor
  · rintro ⟨other, rfl⟩
    exact .index inputs staked other
  · intro h
    cases h with
    | index inputs' again other =>
      obtain ⟨rfl, rfl, rfl⟩ := staked.unique again
      obtain rfl := Transaction.sole_unique inputs inputs'
      exact ⟨other, rfl⟩

theorem time_fails_iff :
    (stake.announcement.time < p.minTime ∨ stake.announcement.time > p.maxTime) ∧
        .timeOutOfBounds stake.announcement.time p.minTime p.maxTime = e ↔
      Fails network r answers .time e := by
  constructor
  · rintro ⟨out, rfl⟩
    exact .time staked out
  · intro h
    cases h with
    | time again out =>
      obtain ⟨rfl, rfl, rfl⟩ := staked.unique again
      exact ⟨out, rfl⟩

theorem amount_fails_iff :
    (stake.stakingOutput.value < p.minAmount ∨ stake.stakingOutput.value > p.maxAmount) ∧
        .amountOutOfBounds stake.stakingOutput.value p.minAmount p.maxAmount = e ↔
      Fails network r answers .amount e := by
  constructor
  · rintro ⟨out, rfl⟩
    exact .amount staked out
  · intro h
    cases h with
    | amount again out =>
      obtain ⟨rfl, rfl, rfl⟩ := staked.unique again
      exact ⟨out, rfl⟩

theorem fee_fails_iff :
    remainder p stake.stakingOutput.value = .error e ↔ Fails network r answers .fee e := by
  rw [remainder_eq_error]
  constructor
  · rintro ⟨spent, rfl⟩
    exact .fee staked spent
  · intro h
    cases h with
    | fee again spent =>
      obtain ⟨rfl, rfl, rfl⟩ := staked.unique again
      exact ⟨spent, rfl⟩

theorem stakingScript_fails_iff :
    (LockedOutput.build .staking (Stake.announcedTerms stake.announcement p.committee p.quorum)
      stake.stakingOutput.value).mapError .scriptReconstruction = .error e ↔
        Fails network r answers .stakingScript e := by
  rw [mapError_eq_error]
  constructor
  · rintro ⟨d, fails, rfl⟩
    exact .stakingScript staked fails
  · intro h
    cases h with
    | stakingScript again fails =>
      obtain ⟨rfl, rfl, rfl⟩ := staked.unique again
      exact ⟨_, fails, rfl⟩

section Left

variable {value : Amount}
  (left : value.toNat + p.unbondingFee.toNat = stake.stakingOutput.value.toNat)

include left

theorem unbondingScript_fails_iff :
    (LockedOutput.build .unbonding (unbondingTerms p stake) value).mapError .scriptReconstruction =
      .error e ↔ Fails network r answers .unbondingScript e := by
  rw [mapError_eq_error]
  constructor
  · rintro ⟨d, fails, rfl⟩
    exact .unbondingScript staked left fails
  · intro h
    cases h with
    | unbondingScript again left' fails =>
      obtain ⟨rfl, rfl, rfl⟩ := staked.unique again
      obtain rfl := left_unique left left'
      exact ⟨_, fails, rfl⟩

theorem output_fails_iff {unbonding : LockedOutput} (outputs : r.transaction.outputs = [output])
    (built : LockedOutput.build .unbonding (unbondingTerms p stake) value = .ok unbonding) :
    output ≠ unbonding.txOut ∧ .outputMismatch = e ↔ Fails network r answers .output e := by
  constructor
  · rintro ⟨other, rfl⟩
    exact .output outputs staked left built other
  · intro h
    cases h with
    | output outputs' again left' built' other =>
      obtain ⟨rfl, rfl, rfl⟩ := staked.unique again
      obtain rfl := left_unique left left'
      obtain rfl := Except.ok.inj (built.symm.trans built')
      obtain rfl := Transaction.sole_unique outputs outputs'
      exact ⟨other, rfl⟩

end Left

end Stakes

theorem stakerSignature_fails_iff {staking : LockedOutput}
    (shape : r.transaction.AwaitsSignature input output)
    (relocked : Relocked r answers inclusion p stake staking) {path : RevealedLeaf}
    (revealed : staking.unbondingPath = .ok path) :
    (r.transaction.verifySpend stake.stakingOutput path.script stake.announcement.staker
      r.stakerSignature).mapError .invalidStakerSignature = .error e ↔
        Fails network r answers .stakerSignature e := by
  rw [mapError_eq_error, LockedOutput.reveal_script revealed]
  simp only [shape.verifySpend_eq_error]
  constructor
  · rintro ⟨_, ⟨unsigned, rfl⟩, rfl⟩
    exact .stakerSignature shape.inputs relocked unsigned
  · intro h
    cases h with
    | stakerSignature inputs' again unsigned =>
      obtain ⟨rfl, rfl, rfl, rfl⟩ := relocked.unique again
      obtain rfl := Transaction.sole_unique shape.inputs inputs'
      exact ⟨_, ⟨unsigned, rfl⟩, rfl⟩

theorem checkBounds_follows (staked : Staked r answers inclusion p stake) :
    Follows (Fails network r answers) [.time, .amount] (checkBounds p stake) := by
  have h : checkBounds p stake =
      (if stake.announcement.time < p.minTime ∨ stake.announcement.time > p.maxTime then
        throw (.timeOutOfBounds stake.announcement.time p.minTime p.maxTime) >>= fun _ : Unit => .ok ()
      else if stake.stakingOutput.value < p.minAmount ∨ stake.stakingOutput.value > p.maxAmount then
        throw (.amountOutOfBounds stake.stakingOutput.value p.minAmount p.maxAmount) >>=
          fun _ : Unit => .ok ()
      else .ok ()) := rfl
  rw [h]
  exact .guard (fun _ => time_fails_iff staked) fun _ =>
    .guard (fun _ => amount_fails_iff staked) fun _ => .ok ()

theorem judge_follows (shape : r.transaction.AwaitsSignature input output)
    (governed : Governed r answers inclusion p) (top : answers .tip = .ok tip) :
    Follows (Fails network r answers) Step.judged (judge network r input output inclusion tip p) := by
  refine .bind (fun _ => membership_fails_iff governed) fun _ _ => ?_
  refine .bind (fun _ => confirmations_fails_iff governed shape.inputs top) fun _ _ => ?_
  refine .bind (fun _ => recognition_fails_iff governed) fun stake recognised => ?_
  have staked : Staked r answers inclusion p stake := ⟨governed, mapError_eq_ok.mp recognised⟩
  refine .bind (fun _ => index_fails_iff staked shape.inputs) fun _ _ => ?_
  refine .append (checkBounds_follows staked) fun _ _ => ?_
  refine .bind (fun _ => fee_fails_iff staked) fun value kept => ?_
  have left := (remainder_eq_ok.mp kept).2
  refine .bind (fun _ => unbondingScript_fails_iff staked left) fun unbonding built => ?_
  refine .guard (fun _ => output_fails_iff staked left shape.outputs (mapError_eq_ok.mp built))
    fun _ => ?_
  refine .bind (fun _ => stakingScript_fails_iff staked) fun staking locked => ?_
  have relocked : Relocked r answers inclusion p stake staking := ⟨staked, mapError_eq_ok.mp locked⟩
  obtain ⟨path, revealed, -⟩ := LockedOutput.unbondingPath_eq_ok relocked.built
  rw [mapError_eq_ok.mpr revealed]
  show Follows _ _ (Except.mapError PolicyError.invalidStakerSignature _ >>= _)
  exact .bind (fun _ => stakerSignature_fails_iff shape relocked revealed) fun _ _ => .ok _

end Judging

section Conducting

variable {network : Network} {r : UnbondingRequest} {answers : Answers} {α β : Type}

/-- A dialogue that takes these steps in this order: it stops at the first that fails, and what it has
asked by then is what the steps up to that one ask. -/
structure Conducts (network : Network) (r : UnbondingRequest) (answers : Answers) (steps : List Step)
    (d : ExceptT PolicyError (Dialogue Inquiries) α) : Prop where
  follows : Follows (Fails network r answers) steps (verdict answers d)
  stopped : ∀ before s e, FirstFailure (Fails network r answers) steps before s e →
    List.Forall₂ (Asks network r answers) ((before ++ [s]).filter Step.consults) (asked answers d)
  ended : (∀ s ∈ steps, ∀ e, ¬ Fails network r answers s e) →
    List.Forall₂ (Asks network r answers) (steps.filter Step.consults) (asked answers d)

namespace Conducts

variable {f : α → ExceptT PolicyError (Dialogue Inquiries) β} {steps rest : List Step} {s : Step}
  {q : Inquiry}

theorem settle {x : Except PolicyError α} (follows : Follows (Fails network r answers) steps x)
    (silent : ∀ s ∈ steps, s.consults = false)
    (later : ∀ a, x = .ok a → Conducts network r answers rest (f a)) :
    Conducts network r answers (steps ++ rest) (Policy.settle x >>= f) := by
  have hsilent : ∀ l ⊆ steps, l.filter Step.consults = [] := by
    intro l hl
    rw [List.filter_eq_nil_iff]
    intro s hs
    simp [silent s (hl hs)]
  constructor
  · rw [verdict_settle]
    exact follows.append fun a ha => (later a ha).follows
  · intro before s e first
    rw [asked_settle]
    rcases firstFailure_append_iff.mp first with h | ⟨before, rfl, passed, h⟩
    · rw [hsilent _ h.upTo.subset, (follows e).mpr ⟨before, s, h⟩]
      exact .nil
    · obtain ⟨a, ha⟩ := follows.passed.mpr passed
      rw [List.append_assoc, List.filter_append, hsilent _ (List.Subset.refl _), ha]
      exact (later a ha).stopped before s e h
  · intro passes
    obtain ⟨a, ha⟩ := follows.passed.mpr fun s hs => passes s (List.mem_append_left _ hs)
    rw [asked_settle, List.filter_append, hsilent _ (List.Subset.refl _), ha]
    exact (later a ha).ended fun s hs => passes s (List.mem_append_right _ hs)

section Consulting

variable {accept : q.Answer → Except PolicyError α} (asks : Asks network r answers s q)
  (consults : s.consults = true)
  (here : ∀ e, accept (answers q) = .error e ↔ Fails network r answers s e)

include asks consults here

theorem consult (later : ∀ a, accept (answers q) = .ok a → Conducts network r answers rest (f a)) :
    Conducts network r answers (s :: rest) (Policy.consult q accept >>= f) := by
  have passed : (∃ a, accept (answers q) = .ok a) ↔ ∀ e, ¬ Fails network r answers s e := by
    simpa using (Follows.single here).passed
  constructor
  · rw [verdict_consult]
    exact .bind here fun a ha => (later a ha).follows
  · intro before t e first
    rw [asked_consult]
    rcases firstFailure_cons_iff.mp first with ⟨rfl, rfl, failed⟩ | ⟨before, rfl, pass, h⟩
    · rw [(here e).mpr failed]
      simpa [consults] using asks
    · obtain ⟨a, ha⟩ := passed.mpr pass
      rw [List.cons_append, List.filter_cons_of_pos consults, ha]
      exact .cons asks ((later a ha).stopped before t e h)
  · intro passes
    obtain ⟨a, ha⟩ := passed.mpr (passes s List.mem_cons_self)
    rw [asked_consult, List.filter_cons_of_pos consults, ha]
    exact .cons asks ((later a ha).ended fun t ht => passes t (List.mem_cons_of_mem _ ht))

theorem last : Conducts network r answers [s] (Policy.consult q accept) := by
  have once : List.Forall₂ (Asks network r answers) ([s].filter Step.consults) [q] := by
    simpa [consults] using asks
  constructor
  · exact .single here
  · intro before t e first
    rcases firstFailure_cons_iff.mp first with ⟨rfl, rfl, -⟩ | ⟨before, -, -, h⟩
    · exact once
    · exact absurd h not_firstFailure_nil
  · intro _
    exact once

end Consulting

end Conducts

theorem lookup_fails_iff {input : TxIn} (inputs : r.transaction.inputs = [input]) {e : PolicyError} :
    Except.mapError .ofLookup (answers (.transaction input.previous.txid r.stakingScript)) =
      .error e ↔ Fails network r answers .lookup e := by
  refine mapError_eq_error.trans ?_
  constructor
  · rintro ⟨c, fails, rfl⟩
    have lookup : LookupFails r answers c := ⟨input, inputs, fails⟩
    cases c with
    | notFound txid => exact .absent lookup (.notFound txid)
    | notInChain txid => exact .absent lookup (.notInChain txid)
    | node e => exact .lookup lookup nofun
    | task text => exact .lookup lookup nofun
  · intro h
    cases h with
    | absent fails absent =>
      obtain ⟨_, inputs', fails⟩ := fails
      obtain rfl := Transaction.sole_unique inputs inputs'
      refine ⟨_, fails, ?_⟩
      cases absent with
      | notFound txid => rfl
      | notInChain txid => rfl
    | @lookup c fails other =>
      obtain ⟨_, inputs', fails⟩ := fails
      obtain rfl := Transaction.sole_unique inputs inputs'
      refine ⟨c, fails, ?_⟩
      cases c with
      | notFound txid => exact absurd (.notFound txid) other
      | notInChain txid => exact absurd (.notInChain txid) other
      | node e => rfl
      | task text => rfl

theorem tip_fails_iff {e : PolicyError} :
    Except.mapError .chain (answers .tip) = .error e ↔ Fails network r answers .tip e := by
  refine mapError_eq_error.trans ?_
  constructor
  · rintro ⟨c, fails, rfl⟩
    exact .tip fails
  · intro h
    cases h with
    | tip fails => exact ⟨_, fails, rfl⟩

theorem parameters_fails_iff {inclusion : Inclusion} (included : Included r answers inclusion)
    {e : PolicyError} :
    Except.mapError .parameters (answers (.parameters inclusion.height.toUInt64)) = .error e ↔
      Fails network r answers .parameters e := by
  refine mapError_eq_error.trans ?_
  constructor
  · rintro ⟨d, fails, rfl⟩
    exact .parameters included fails
  · intro h
    cases h with
    | parameters again fails =>
      obtain rfl := included.unique again
      exact ⟨_, fails, rfl⟩

theorem backend_fails_iff {request : SigningRequest} (ordered : Ordered network r answers request)
    {e : PolicyError} :
    Except.mapError .backend (answers (.signature request)) = .error e ↔
      Fails network r answers .backend e := by
  refine mapError_eq_error.trans ?_
  constructor
  · rintro ⟨b, fails, rfl⟩
    exact .backend ordered fails
  · intro h
    cases h with
    | backend again fails =>
      obtain rfl := ordered.unique again
      exact ⟨_, fails, rfl⟩

theorem taproot_fails_iff {e : PolicyError} :
    (if Script.isTaproot r.stakingScript then .ok () else .error .notTaproot :
      Except PolicyError Unit) = .error e ↔ Fails network r answers .taproot e := by
  rw [require_eq_error, isTaproot_iff]
  constructor
  · rintro ⟨other, rfl⟩
    exact .taproot other
  · intro h
    cases h with
    | taproot other => exact ⟨other, rfl⟩

theorem shape_fails_iff (check : Transaction.Check) (e : PolicyError) :
    Fails network r answers (.shape check) e ↔
      ∃ d, r.transaction.Violates check d ∧ .malformedTransaction d = e := by
  constructor
  · intro h
    cases h with
    | shape violates => exact ⟨_, violates, rfl⟩
  · rintro ⟨d, violates, rfl⟩
    exact .shape violates

/-- Signing takes all of its steps in their order. -/
theorem sign_conducts (network : Network) (r : UnbondingRequest) (answers : Answers) :
    Conducts network r answers Step.inOrder (sign network r) := by
  refine .settle (.rename r.transaction.awaitingSignature_follows shape_fails_iff) (by decide) ?_
  rintro ⟨input, output⟩ parts
  have shape := Transaction.awaitingSignature_eq_ok.mp (mapError_eq_ok.mp parts)
  refine .settle (.single fun _ => taproot_fails_iff) (by decide) fun _ _ => ?_
  refine .consult (.lookup shape.inputs) rfl (fun _ => lookup_fails_iff shape.inputs)
    fun inclusion found => ?_
  have included : Included r answers inclusion := ⟨input, shape.inputs, mapError_eq_ok.mp found⟩
  refine .consult .tip rfl (fun _ => tip_fails_iff) fun tip known => ?_
  refine .consult (.parameters included) rfl (fun _ => parameters_fails_iff included)
    fun p governs => ?_
  have governed : Governed r answers inclusion p := ⟨included, mapError_eq_ok.mp governs⟩
  refine .settle (judge_follows shape governed (mapError_eq_ok.mp known)) (by decide)
    fun request judged => ?_
  obtain ⟨stake, unbonding, staking, path, merits, revealed, rfl⟩ := (judge_eq_ok shape).mp judged
  have ordered : Ordered network r answers (order network r stake path) :=
    ⟨inclusion, p, stake, staking, path, ⟨⟨governed, merits.recognised⟩, merits.locked⟩, revealed, rfl⟩
  exact .last (.backend ordered) rfl fun _ => backend_fails_iff ordered

/-- Who is to blame depends on the step alone, but for a lookup. -/
theorem Fails.blame {s : Step} {e : PolicyError} (h : Fails network r answers s e) :
    e.blame = .internal ↔
      s ∈ Step.own ∨ s = .lookup ∧ ∃ c, LookupFails r answers c ∧ ¬ c.Absent := by
  cases h with
  | absent fails absent =>
    have only : ∀ c, LookupFails r answers c → c.Absent := by
      rintro c ⟨input, inputs, hc⟩
      obtain ⟨input', inputs', hd⟩ := fails
      obtain rfl := Transaction.sole_unique inputs inputs'
      obtain rfl := Except.error.inj (hd.symm.trans hc)
      exact absent
    simp only [PolicyError.blame, Step.own, List.mem_cons, List.not_mem_nil, reduceCtorEq, or_false,
      false_or, true_and, false_iff, not_exists, not_and, not_not]
    exact only
  | lookup fails other =>
    simp only [PolicyError.blame, true_and, true_iff]
    exact Or.inr ⟨_, fails, other⟩
  | _ => simp [PolicyError.blame, Step.own]

end Conducting

/-- Whatever everyone answers, the verdict is that of the first step that fails, nobody is asked but by
the steps up to it, and it alone decides who is to blame. -/
theorem stops_at_first_failure (network : Network) (r : UnbondingRequest) (answers : Answers) :
    (∀ e, verdict answers (sign network r) = .error e ↔
      ∃ before s, FirstFailure (Fails network r answers) Step.inOrder before s e) ∧
    (∀ before s e, FirstFailure (Fails network r answers) Step.inOrder before s e →
      List.Forall₂ (Asks network r answers) ((before ++ [s]).filter Step.consults)
          (asked answers (sign network r)) ∧
        (e.blame = .internal ↔
          s ∈ Step.own ∨ s = .lookup ∧ ∃ c, LookupFails r answers c ∧ ¬ c.Absent)) ∧
    ((∀ s e, ¬ Fails network r answers s e) →
      List.Forall₂ (Asks network r answers) [.lookup, .tip, .parameters, .backend]
        (asked answers (sign network r))) := by
  have conducts := sign_conducts network r answers
  refine ⟨conducts.follows, ?_, fun passes => conducts.ended fun s _ => passes s⟩
  intro before s e first
  exact ⟨conducts.stopped before s e first, first.failed.blame⟩

end Policy

namespace Sample

open Policy

def strange : UnbondingRequest := (unbound 2 version_two).request approval ⟨staker, false⟩

theorem strange_refused :
    verdict (answers 205) (sign .signet strange) = .error (.notMember ⟨staker, false⟩ 200) := by
  have shape := (unbound 2 version_two).shape honest_within.fee
  have parts : strange.transaction.awaitingSignature.mapError PolicyError.malformedTransaction =
      .ok ((unbound 2 version_two).input, (unbound 2 version_two).output.txOut) :=
    mapError_eq_ok.mpr (Transaction.awaitingSignature_eq_ok.mpr shape)
  have included : (answers 205 (.transaction (unbound 2 version_two).input.previous.txid
      strange.stakingScript)).mapError PolicyError.ofLookup = .ok ⟨plan.within surroundings, 200⟩ := rfl
  have governs : (answers 205 (.parameters (200 : UInt32).toUInt64)).mapError PolicyError.parameters =
      .ok parameters := mapError_eq_ok.mpr parametersAt_included
  unfold sign
  refine (verdict_settle_ok (answers 205) _ parts).trans ?_
  refine (verdict_settle_ok (answers 205) _ (a := ()) (if_pos (by decide +kernel))).trans ?_
  refine (verdict_consult_ok (answers 205) _ included).trans ?_
  refine (verdict_consult_ok (answers 205) _ (a := (205 : UInt32)) rfl).trans ?_
  refine (verdict_consult_ok (answers 205) _ governs).trans ?_
  rfl

end Sample

namespace Policy

open Sample in
theorem sample_stops_at_first_failure : ∃ before s,
    FirstFailure (Fails .signet strange (answers 205)) Step.inOrder before s
        (.notMember ⟨staker, false⟩ 200) ∧
      List.Forall₂ (Asks .signet strange (answers 205)) ((before ++ [s]).filter Step.consults)
        (asked (answers 205) (sign .signet strange)) := by
  obtain ⟨reports, stops, -⟩ := stops_at_first_failure .signet strange (answers 205)
  obtain ⟨before, s, first⟩ := (reports _).mp strange_refused
  exact ⟨before, s, first, (stops before s _ first).1⟩

end Policy

end Countersign
