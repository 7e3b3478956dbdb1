import Countersign.Curve.Key
import Countersign.Hex

/-!
# What is wrong with a stake

The reasons for which staking scripts cannot be built, a transaction is not recognised as a stake,
or a spend of one is refused, and the sentence that tells each of them.
-/

set_option autoImplicit false

namespace Countersign

inductive KeyGroup where
  | finalityProviders
  | covenantCommittee
  deriving DecidableEq, Repr

namespace KeyGroup

def text : KeyGroup → String
  | .finalityProviders => "finality providers"
  | .covenantCommittee => "covenant committee"

end KeyGroup

inductive OpReturnFault where
  | notOpReturn
  | length (actual : Nat)
  | stakerKey
  | finalityProviderKey
  deriving DecidableEq, Repr

namespace OpReturnFault

def text : OpReturnFault → String
  | .notOpReturn => "not a V0 op return output"
  | .length actual => s!"expected 71 bytes, got {actual}"
  | .stakerKey => "invalid staker key: malformed public key"
  | .finalityProviderKey => "invalid finality provider key: malformed public key"

end OpReturnFault

inductive StakingError where
  | noKeys (group : KeyGroup)
  | duplicateKey (group : KeyGroup) (key : XOnlyKey)
  | invalidQuorum (quorum : UInt32) (keys : Nat)
  | untweakable
  | missingLeaf
  | invalidTagLength (length : Nat)
  | notEnoughOutputs (count : Nat)
  | missingOpReturn
  | multipleOpReturns
  | tagMismatch (expected actual : Bytes)
  | unsupportedVersion (version : UInt8)
  | invalidOpReturn (fault : OpReturnFault)
  | missingStakingOutput
  | multipleStakingOutputs
  | invalidInputCount (count : Nat)
  | invalidOutputCount (count : Nat)
  | zeroValueOutput
  | hasLockTime
  | replaceable
  | alreadySigned
  | unsupportedTxVersion (version : Int32)
  | invalidSignature
  deriving DecidableEq

namespace StakingError

def message : StakingError → String
  | .noKeys group => s!"no keys provided for {group.text}"
  | .duplicateKey group key => s!"duplicate key {Hex.encode key.bytes} in {group.text}"
  | .invalidQuorum quorum keys => s!"invalid quorum {quorum} for {keys} keys"
  | .untweakable => "taproot tree construction failed: tweak out of range"
  | .missingLeaf => "leaf script is not part of the taproot tree"
  | .invalidTagLength length => s!"invalid tag length {length}, expected 4 bytes"
  | .notEnoughOutputs count => s!"staking tx must have at least 2 outputs, got {count}"
  | .missingOpReturn => "transaction does not have expected op return output"
  | .multipleOpReturns => "multiple op return outputs found"
  | .tagMismatch expected actual =>
    s!"op return tag mismatch: expected {Hex.encode expected}, got {Hex.encode actual}"
  | .unsupportedVersion version => s!"unsupported op return version {version}"
  | .invalidOpReturn fault => s!"invalid op return data: {fault.text}"
  | .missingStakingOutput => "staking output not found in potential staking transaction"
  | .multipleStakingOutputs => "multiple staking outputs found"
  | .invalidInputCount count => s!"simple transfer tx must have exactly one input, got {count}"
  | .invalidOutputCount count => s!"simple transfer tx must have exactly one output, got {count}"
  | .zeroValueOutput => "simple transfer tx output must have positive value"
  | .hasLockTime => "pre-signed tx must not have locktime"
  | .replaceable => "pre-signed tx must not be replaceable"
  | .alreadySigned => "pre-signed tx must not have signature script or witness"
  | .unsupportedTxVersion version => s!"pre-signed tx has unsupported version {version}"
  | .invalidSignature => "invalid schnorr signature: signature failed verification"

end StakingError

end Countersign
