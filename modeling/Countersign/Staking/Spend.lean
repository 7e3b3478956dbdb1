import Countersign.Bitcoin.Sighash
import Countersign.Curve.Schnorr
import Countersign.Staking.Error

/-!
# Spending through a leaf

Transactions that move one input to one output, and the signatures over the only input of a
transaction that spends an output through a leaf. An unbonding transaction that waits for its witness
must be final as soon as it is signed.
-/

set_option autoImplicit false

namespace Countersign

namespace Transaction

def simpleTransfer (t : Transaction) : Except StakingError (TxIn × TxOut) :=
  match t.inputs with
  | [input] =>
    match t.outputs with
    | [output] => if output.value = 0 then .error .zeroValueOutput else .ok (input, output)
    | outputs => .error (.invalidOutputCount outputs.length)
  | inputs => .error (.invalidInputCount inputs.length)

/-- A transfer without lock time, with a final sequence, nothing signed yet and version 1 or 2. -/
def awaitingSignature (t : Transaction) : Except StakingError (TxIn × TxOut) := do
  let (input, output) ← t.simpleTransfer
  if t.lockTime ≠ 0 then throw .hasLockTime
  if input.sequence ≠ 0xffffffff then throw .replaceable
  if ¬ (input.scriptSig = [] ∧ input.witness = []) then throw .alreadySigned
  if ¬ (t.version = 1 ∨ t.version = 2) then throw (.unsupportedTxVersion t.version)
  return (input, output)

def spendDigest (t : Transaction) (funding : TxOut) (leafHash : Hash256) :
    Except StakingError Bytes :=
  match t.inputs with
  | [input] => .ok (Sighash.digest t input funding leafHash)
  | inputs => .error (.invalidInputCount inputs.length)

def signSpend (t : Transaction) (funding : TxOut) (pair : KeyPair) (leafHash : Hash256) :
    Except StakingError Signature := do
  return Schnorr.sign pair (← t.spendDigest funding leafHash)

def verifySpend (t : Transaction) (funding : TxOut) (leafScript : Script) (key : XOnlyKey)
    (signature : Signature) : Except StakingError Unit := do
  let digest ← t.spendDigest funding (Taproot.leafHash leafScript)
  if Schnorr.verify key digest signature then return () else throw .invalidSignature

end Transaction

end Countersign
