import Countersign.Dialogue
import Countersign.Policy.Error
import Countersign.Staking.Spend
import Countersign.Staking.Stake

/-!
# The signing policy

A request asks for the covenant's signature on an unbonding transaction. Its shape is checked first,
then the chain is asked for the staking transaction and its tip, and the parameters in force when the
stake was included decide: the key must be a member, the stake mature and within bounds, the output
the one that these terms make, and the staker's signature good. Only then is the backend asked to sign.
-/

set_option autoImplicit false

namespace Countersign

structure UnbondingRequest where
  stakingScript : Script
  transaction : Transaction
  stakerSignature : Signature
  covenantKey : PublicKey
  deriving DecidableEq

/-- A transaction of the canonical chain and the height of its block. -/
structure Inclusion where
  transaction : Transaction
  height : UInt32
  deriving DecidableEq

inductive Inquiry where
  | transaction (txid : Hash256) (script : Script)
  | tip
  | parameters (height : UInt64)
  | signature (request : SigningRequest)
  deriving DecidableEq

namespace Inquiry

def Answer : Inquiry → Type
  | .transaction _ _ => Except ChainError Inclusion
  | .tip => Except ChainError UInt32
  | .parameters _ => Except ParamsError Parameters
  | .signature _ => Except BackendError Signature

end Inquiry

def Inquiries : Interface := ⟨Inquiry, Inquiry.Answer⟩

namespace Policy

/-- Blocks on top of an inclusion, that block counted. The two heights come from separate answers, so
the number may be negative. -/
def confirmations (tip inclusion : UInt32) : Int := (tip.toNat : Int) - inclusion.toNat + 1

def checkMember (p : Parameters) (key : PublicKey) (height : UInt32) : Except PolicyError Unit :=
  if p.isMember key then .ok () else .error (.notMember key height)

def checkMature (p : Parameters) (txid : Hash256) (tip height : UInt32) : Except PolicyError Unit :=
  let current := confirmations tip height
  if current < p.confirmationDepth.toNat then
    .error (.tooFewConfirmations txid current p.confirmationDepth)
  else .ok ()

def checkIndex (stake : Stake) (spent : OutPoint) : Except PolicyError Unit :=
  if spent.vout.toNat = stake.stakingIndex then .ok ()
  else .error (.inputIndex stake.stakingIndex spent.vout)

def checkBounds (p : Parameters) (stake : Stake) : Except PolicyError Unit :=
  let time := stake.announcement.time
  let amount := stake.stakingOutput.value
  if time < p.minTime ∨ time > p.maxTime then .error (.timeOutOfBounds time p.minTime p.maxTime)
  else if amount < p.minAmount ∨ amount > p.maxAmount then
    .error (.amountOutOfBounds amount p.minAmount p.maxAmount)
  else .ok ()

def remainder (p : Parameters) (amount : Amount) : Except PolicyError Amount :=
  if p.unbondingFee < amount then .ok (amount - p.unbondingFee)
  else .error (.valueTooLow amount p.unbondingFee)

def unbondingTerms (p : Parameters) (stake : Stake) : Terms :=
  { Stake.announcedTerms stake.announcement p.committee p.quorum with lockTime := p.unbondingTime }

def judge (network : Network) (r : UnbondingRequest) (input : TxIn) (output : TxOut)
    (inclusion : Inclusion) (tip : UInt32) (p : Parameters) : Except PolicyError SigningRequest := do
  checkMember p r.covenantKey inclusion.height
  checkMature p input.previous.txid tip inclusion.height
  let stake ←
    (Stake.recognise inclusion.transaction p.tag.bytes p.committee p.quorum).mapError .invalidStake
  checkIndex stake input.previous
  checkBounds p stake
  let value ← remainder p stake.stakingOutput.value
  let unbonding ←
    (LockedOutput.build .unbonding (unbondingTerms p stake) value).mapError .scriptReconstruction
  if output ≠ unbonding.txOut then throw .outputMismatch
  let staking ←
    (LockedOutput.build .staking (Stake.announcedTerms stake.announcement p.committee p.quorum)
      stake.stakingOutput.value).mapError .scriptReconstruction
  let path ← staking.unbondingPath.mapError .scriptReconstruction
  (r.transaction.verifySpend stake.stakingOutput path.script stake.announcement.staker
    r.stakerSignature).mapError .invalidStakerSignature
  return {
    stakingOutput := stake.stakingOutput
    transaction := r.transaction
    covenantKey := r.covenantKey
    walletAddress := network.keyHashAddress r.covenantKey
    path }

def settle {α : Type} (e : Except PolicyError α) : ExceptT PolicyError (Dialogue Inquiries) α :=
  ExceptT.mk (.done e)

def consult {α : Type} (q : Inquiry) (accept : q.Answer → Except PolicyError α) :
    ExceptT PolicyError (Dialogue Inquiries) α :=
  ExceptT.mk (.ask q fun answer => .done (accept answer))

def sign (network : Network) (r : UnbondingRequest) :
    ExceptT PolicyError (Dialogue Inquiries) Signature := do
  let (input, output) ← settle (r.transaction.awaitingSignature.mapError .malformedTransaction)
  settle (if Script.isTaproot r.stakingScript then .ok () else .error .notTaproot)
  let inclusion ←
    consult (.transaction input.previous.txid r.stakingScript) (Except.mapError .ofLookup)
  let tip ← consult .tip (Except.mapError .chain)
  let p ← consult (.parameters inclusion.height.toUInt64) (Except.mapError .parameters)
  let request ← settle (judge network r input output inclusion tip p)
  consult (.signature request) (Except.mapError .backend)

end Policy

end Countersign
