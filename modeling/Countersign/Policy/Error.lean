import Countersign.Params.Parameters
import Countersign.Signing.Request

/-!
# Why a request is not signed

Either the caller asked for something that must not be signed, or the service could not reach a
decision or carry it out.
-/

set_option autoImplicit false

namespace Countersign

inductive Blame where
  | invalidRequest
  | internal
  deriving DecidableEq, Repr

inductive PolicyError where
  | malformedTransaction (e : StakingError)
  | notTaproot
  | stakeUnavailable (e : ChainError)
  | notMember (key : PublicKey) (height : UInt32)
  | tooFewConfirmations (txid : Hash256) (current : Int) (required : UInt16)
  | invalidStake (e : StakingError)
  | inputIndex (expected : Nat) (actual : UInt32)
  | timeOutOfBounds (time min max : UInt16)
  | amountOutOfBounds (amount min max : Amount)
  | outputMismatch
  | invalidStakerSignature (e : StakingError)
  | chain (e : ChainError)
  | parameters (e : ParamsError)
  | valueTooLow (amount fee : Amount)
  | scriptReconstruction (e : StakingError)
  | backend (e : BackendError)

namespace PolicyError

def message : PolicyError → String
  | .malformedTransaction e => s!"invalid unbonding transaction: {e.message}"
  | .notTaproot => "staking output pk script is not a taproot script"
  | .stakeUnavailable e => s!"staking transaction is not confirmed: {e.message}"
  | .notMember key height =>
    s!"key {Hex.encode key.bytes} is not a covenant member at height {height}"
  | .tooFewConfirmations txid current required =>
    s!"staking transaction {txid.text} has {current} confirmations, {required} required"
  | .invalidStake e => s!"invalid staking transaction: {e.message}"
  | .inputIndex expected actual =>
    s!"unbonding transaction spends output {actual}, staking output index is {expected}"
  | .timeOutOfBounds time min max => s!"staking time {time} outside of [{min}, {max}]"
  | .amountOutOfBounds amount min max =>
    s!"staking amount {amount.inCoins} outside of [{min.inCoins}, {max.inCoins}]"
  | .outputMismatch => "unbonding output does not match expected unbonding output"
  | .invalidStakerSignature e => s!"invalid staker unbonding signature: {e.message}"
  | .chain e => s!"chain info request failed: {e.message}"
  | .parameters e => s!"failed to retrieve params: {e.message}"
  | .valueTooLow amount fee =>
    s!"staking amount {amount.inCoins} does not cover unbonding fee {fee.inCoins}"
  | .scriptReconstruction e => s!"failed to rebuild staking scripts: {e.message}"
  | .backend e => s!"signing backend failed: {e.message}"

def blame : PolicyError → Blame
  | .malformedTransaction _ => .invalidRequest
  | .notTaproot => .invalidRequest
  | .stakeUnavailable _ => .invalidRequest
  | .notMember .. => .invalidRequest
  | .tooFewConfirmations .. => .invalidRequest
  | .invalidStake _ => .invalidRequest
  | .inputIndex .. => .invalidRequest
  | .timeOutOfBounds .. => .invalidRequest
  | .amountOutOfBounds .. => .invalidRequest
  | .outputMismatch => .invalidRequest
  | .invalidStakerSignature _ => .invalidRequest
  | .chain _ => .internal
  | .parameters _ => .internal
  | .valueTooLow .. => .internal
  | .scriptReconstruction _ => .internal
  | .backend _ => .internal

/-- A lookup that finds no confirmed transaction is the caller's fault, any other failure is not. -/
def ofLookup : ChainError → PolicyError
  | .notFound txid => .stakeUnavailable (.notFound txid)
  | .notInChain txid => .stakeUnavailable (.notInChain txid)
  | .node e => .chain (.node e)
  | .task text => .chain (.task text)

end PolicyError

end Countersign
