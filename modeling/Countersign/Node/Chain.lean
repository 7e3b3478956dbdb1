import Countersign.Node.Result
import Countersign.Policy.Engine

/-!
# Chain lookups

A transaction counts as found only if one of its outputs pays the script it was asked for with, and as
included only if its block is still on the main chain. The block is not asked for otherwise.
-/

set_option autoImplicit false

namespace Countersign

namespace Node

def unknownTransaction : Int32 := -5

structure ConfirmedTransaction where
  transaction : Transaction
  blockHash : Hash256
  height : UInt32

inductive TransactionStatus where
  | notFound
  | inMempool (transaction : Transaction)
  | inChain (confirmed : ConfirmedTransaction)

def transactionCall (txid : Hash256) : ExceptT NodeError (Dialogue Rpc) RawTransaction :=
  Rpc.call "getrawtransaction" [Json.ofText txid.text, .bool true] RawTransaction.ofJson?

def headerCall (block : Hash256) : ExceptT NodeError (Dialogue Rpc) BlockPosition :=
  Rpc.call "getblockheader" [Json.ofText block.text, .bool true] BlockPosition.ofJson?

def blockCountCall : ExceptT NodeError (Dialogue Rpc) UInt64 :=
  Rpc.call "getblockcount" [] Json.u64?

def height (n : UInt64) : Except NodeError UInt32 :=
  if n.toNat < UInt32.size then .ok n.toUInt32 else .error (.heightOutOfRange n)

/-- The transaction as it was sent, or nothing if the node does not know it. -/
def rawTransaction? (txid : Hash256) : ExceptT NodeError (Dialogue Rpc) (Option RawTransaction) :=
  tryCatch (some <$> transactionCall txid) fun e =>
    match e with
    | .rpc (.refused code message data) =>
      if code = unknownTransaction then pure none else throw (.rpc (.refused code message data))
    | e => throw e

def status (txid : Hash256) (script : Script) :
    ExceptT NodeError (Dialogue Rpc) TransactionStatus := do
  match ← rawTransaction? txid with
  | none => return .notFound
  | some raw =>
    match Transaction.decode? raw.hex with
    | none => throw (.invalidTransaction txid)
    | some transaction =>
      if transaction.outputs.all fun o => o.script ≠ script then return .notFound
      match raw.blockHash with
      | none => return .inMempool transaction
      | some blockHash =>
        let position ← headerCall blockHash
        if position.confirmations < 0 then return .notFound
        let height ← ExceptT.mk (.done (height position.height))
        return .inChain { transaction, blockHash, height }

def bestHeight : ExceptT NodeError (Dialogue Rpc) UInt32 := do
  let count ← blockCountCall
  ExceptT.mk (.done (height count))

def inclusionOf (txid : Hash256) : TransactionStatus → Except ChainError Inclusion
  | .notFound => .error (.notFound txid)
  | .inMempool _ => .error (.notInChain txid)
  | .inChain confirmed => .ok ⟨confirmed.transaction, confirmed.height⟩

def inclusion (txid : Hash256) (script : Script) : Dialogue Rpc (Except ChainError Inclusion) := do
  match ← (status txid script).run with
  | .ok s => return inclusionOf txid s
  | .error e => return .error (.node e)

def tip : Dialogue Rpc (Except ChainError UInt32) := do
  return (← bestHeight.run).mapError .node

end Node

end Countersign
