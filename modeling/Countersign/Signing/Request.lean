import Countersign.Curve.Schnorr
import Countersign.Node.Error
import Countersign.Staking.LockedOutput

/-!
# Signing requests

What a signing backend is handed once an unbonding transaction has been approved, and why it may fail
to come back with a signature.
-/

set_option autoImplicit false

namespace Countersign

structure SigningRequest where
  stakingOutput : TxOut
  transaction : Transaction
  covenantKey : PublicKey
  /-- The address under which a wallet knows the covenant key. -/
  walletAddress : String
  path : RevealedLeaf
  deriving DecidableEq

inductive SighashType where
  | default
  | all
  | none
  | single
  | allAnyoneCanPay
  | noneAnyoneCanPay
  | singleAnyoneCanPay
  deriving DecidableEq, Repr

namespace SighashType

def text : SighashType → String
  | .default => "SIGHASH_DEFAULT"
  | .all => "SIGHASH_ALL"
  | .none => "SIGHASH_NONE"
  | .single => "SIGHASH_SINGLE"
  | .allAnyoneCanPay => "SIGHASH_ALL|SIGHASH_ANYONECANPAY"
  | .noneAnyoneCanPay => "SIGHASH_NONE|SIGHASH_ANYONECANPAY"
  | .singleAnyoneCanPay => "SIGHASH_SINGLE|SIGHASH_ANYONECANPAY"

def byte : SighashType → UInt8
  | .default => 0x00
  | .all => 0x01
  | .none => 0x02
  | .single => 0x03
  | .allAnyoneCanPay => 0x81
  | .noneAnyoneCanPay => 0x82
  | .singleAnyoneCanPay => 0x83

def ofByte? (b : UInt8) : Option SighashType :=
  [default, all, none, single, allAnyoneCanPay, noneAnyoneCanPay, singleAnyoneCanPay].find?
    fun t => t.byte == b

theorem ofByte?_byte (t : SighashType) : ofByte? t.byte = some t := by
  cases t <;> rfl

end SighashType

inductive BackendError where
  | invalidTransaction (e : StakingError)
  | psbtInputs (count : Nat)
  | psbtSign (e : NodeError)
  | missingSignature
  | unexpectedSighash (t : SighashType)
  | keyRetrieval (e : NodeError)
  | keyMismatch (expected : PublicKey)
  | signing (e : StakingError)
  | task (text : String)

namespace BackendError

def message : BackendError → String
  | .invalidTransaction e => s!"invalid unbonding transaction: {e.message}"
  | .psbtInputs count => s!"failed to build PSBT packet: expected 1 input, got {count}"
  | .psbtSign e => s!"failed to sign PSBT packet: {e.message}"
  | .missingSignature =>
    "no signature found in PSBT packet, wallet does not maintain covenant public key"
  | .unexpectedSighash t => s!"wallet signed with sighash {t.text} instead of DEFAULT"
  | .keyRetrieval e => s!"failed to retrieve covenant key for signing: {e.message}"
  | .keyMismatch expected =>
    s!"wallet key does not match covenant public key {Hex.encode expected.bytes}"
  | .signing e => s!"failed to sign transaction: {e.message}"
  | .task text => s!"bitcoind task failed: {text}"

end BackendError

end Countersign
