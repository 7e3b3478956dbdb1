import Countersign.Staking.Announcement

/-!
# Parameters

The committee and the limits that stakes are judged by. Each version of them governs the blocks from
its activation height on, until the next version activates.
-/

set_option autoImplicit false

namespace Countersign

structure Parameters where
  covenantKeys : List PublicKey
  quorum : UInt32
  tag : Tag
  unbondingTime : UInt16
  unbondingFee : Amount
  maxAmount : Amount
  minAmount : Amount
  maxTime : UInt16
  minTime : UInt16
  /-- Blocks, the including one among them, that must have passed before a stake may unbond. -/
  confirmationDepth : UInt16
  deriving DecidableEq

namespace Parameters

def committee (p : Parameters) : List XOnlyKey := p.covenantKeys.map PublicKey.xOnly

/-- Membership is by the full key, parity included. -/
def isMember (p : Parameters) (key : PublicKey) : Bool := p.covenantKeys.contains key

end Parameters

structure ParametersVersion where
  version : UInt64
  activationHeight : UInt64
  parameters : Parameters
  deriving DecidableEq

inductive NarrowField where
  | unbondingTime
  | minStakingTime
  | maxStakingTime
  | confirmationDepth
  deriving DecidableEq, Repr

namespace NarrowField

def text : NarrowField → String
  | .unbondingTime => "unbonding time"
  | .minStakingTime => "min staking time"
  | .maxStakingTime => "max staking time"
  | .confirmationDepth => "confirmation depth"

end NarrowField

inductive VersionFault where
  | tagText (e : Hex.Error)
  | tagLength (actual : Nat)
  | noKeys
  | keyText (key : String) (e : Hex.Error)
  | keyLength (key : String)
  | keyPoint (key : String)
  | duplicateKey (key : String)
  | quorum (threshold : UInt32) (keys : Nat)
  | tooWide (field : NarrowField) (value : UInt64)
  | noUnbondingTime
  | noUnbondingFee
  | amountRange (min max : UInt64)
  | timeRange (min max : UInt16)
  | noConfirmationDepth
  | feeTooHigh (fee max : UInt64)
  | numbering (expected : Nat)
  | activation (height previous : UInt64)
  deriving DecidableEq

namespace VersionFault

def reason : VersionFault → String
  | .tagText e => s!"invalid tag: {e.message}"
  | .tagLength actual => s!"tag must be 4 bytes, got {actual}"
  | .noKeys => "empty covenant public keys"
  | .keyText key e => s!"invalid covenant key {key}: {e.message}"
  | .keyLength key => s!"covenant key {key} is not a compressed public key"
  | .keyPoint key => s!"invalid covenant key {key}: malformed public key"
  | .duplicateKey key => s!"duplicate covenant key {key}"
  | .quorum threshold keys => s!"covenant quorum {threshold} invalid for {keys} keys"
  | .tooWide field value => s!"{field.text} {value} does not fit in 16 bits"
  | .noUnbondingTime => "unbonding time must be positive"
  | .noUnbondingFee => "unbonding fee must be positive"
  | .amountRange min max => s!"invalid staking amount range [{min}, {max}]"
  | .timeRange min max => s!"invalid staking time range [{min}, {max}]"
  | .noConfirmationDepth => "confirmation depth must be positive"
  | .feeTooHigh fee max => s!"unbonding fee {fee} must be lower than max staking amount {max}"
  | .numbering expected => s!"expected version {expected}"
  | .activation height previous =>
    s!"activation height {height} must be greater than {previous}"

end VersionFault

inductive ParamsError where
  | notFound (height : UInt64)
  | io (path : String) (reason : String)
  | json
  | empty
  | invalid (version : UInt64) (fault : VersionFault)
  deriving DecidableEq

namespace ParamsError

def message : ParamsError → String
  | .notFound height => s!"no global params for height {height}"
  | .io path reason => s!"failed to read params file {Quoted.text path}: {reason}"
  | .json => "failed to parse params"
  | .empty => "global params must contain at least one version"
  | .invalid version fault => s!"invalid params version {version}: {fault.reason}"

end ParamsError

end Countersign
