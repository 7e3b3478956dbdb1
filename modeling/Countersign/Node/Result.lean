import Countersign.Bitcoin.Network
import Countersign.Node.Rpc

/-!
# Results of calls

The values a node answers, of which little is used: the bytes of a transaction and the block it is in,
the place of a block in the chain, an exported key and a processed packet. Every field is still read as
the type it should have, so a reply that is wrong anywhere is not used at all.
-/

set_option autoImplicit false

namespace Countersign

namespace Json

def hex? (v : Json) : Option Bytes := v.text?.bind Hex.decode?

def hash256? (v : Json) : Option Hash256 := v.text?.bind Hash256.ofText?

def list? {α : Type} (read : Json → Option α) (v : Json) : Option (List α) := do
  (← v.items?).mapM read

def float? (v : Json) : Option Unit := if v.isFloat then some () else none

def isCoins (x : Rat) : Bool :=
  let sats := x * Amount.satsPerCoin
  [sats.floor, sats.ceil].any fun n =>
    Decimal.nearestFloat (n / Amount.satsPerCoin) = x ∧ n < UInt64.size

def coins? (v : Json) : Option Unit := do
  if isCoins (← v.unsignedFloat?) then some () else none

def address? (v : Json) : Option Unit := do
  if Network.isAddress (← v.text?) then some () else none

end Json

namespace Node

structure RawTransaction where
  hex : Bytes
  blockHash : Option Hash256

def inputScript? (v : Json) : Option Unit := do
  let r ← v.record? ["asm", "hex"]
  let _ ← r.required "asm" Json.text?
  let _ ← r.required "hex" Json.hex?

def input? (v : Json) : Option Unit := do
  let r ← v.openRecord? 5 ["sequence", "coinbase", "txid", "vout", "scriptSig", "txinwitness"]
  let _ ← r.required "sequence" Json.u32?
  let _ ← r.defaulted "coinbase" Json.hex?
  let _ ← r.optional "txid" Json.hash256?
  let _ ← r.optional "vout" Json.u32?
  let _ ← r.optional "scriptSig" inputScript?
  let _ ← r.defaulted "txinwitness" (Json.list? Json.hex?)

def scriptKinds : List String :=
  ["nonstandard", "pubkey", "pubkeyhash", "scripthash", "multisig", "nulldata", "witness_v0_keyhash",
   "witness_v0_scripthash", "witness_v1_taproot", "witness_unknown"]

def scriptKind? (v : Json) : Option Unit := do
  let kind ← v.variant?
  if (scriptKinds.map Utf8.encode).contains kind then some () else none

def outputScript? (v : Json) : Option Unit := do
  let r ← v.openRecord? 4 ["asm", "hex", "reqSigs", "type", "addresses", "address"]
  let _ ← r.required "asm" Json.text?
  let _ ← r.required "hex" Json.hex?
  let _ ← r.optional "reqSigs" Json.u64?
  let _ ← r.optional "type" scriptKind?
  let _ ← r.defaulted "addresses" (Json.list? Json.address?)
  let _ ← r.optional "address" Json.address?

def output? (v : Json) : Option Unit := do
  let r ← v.record? ["value", "n", "scriptPubKey"]
  let _ ← r.required "value" Json.coins?
  let _ ← r.required "n" Json.u32?
  let _ ← r.required "scriptPubKey" outputScript?

def RawTransaction.ofJson? (v : Json) : Option RawTransaction := do
  let r ← v.record? ["in_active_chain", "hex", "txid", "hash", "size", "vsize", "version", "locktime",
    "vin", "vout", "blockhash", "confirmations", "time", "blocktime"]
  let _ ← r.optional "in_active_chain" Json.bool?
  let hex ← r.required "hex" Json.hex?
  let _ ← r.required "txid" Json.hash256?
  let _ ← r.required "hash" Json.hash256?
  let _ ← r.required "size" Json.u64?
  let _ ← r.required "vsize" Json.u64?
  let _ ← r.required "version" Json.u32?
  let _ ← r.required "locktime" Json.u32?
  let _ ← r.required "vin" (Json.list? input?)
  let _ ← r.required "vout" (Json.list? output?)
  let blockHash ← r.optional "blockhash" Json.hash256?
  let _ ← r.optional "confirmations" Json.u32?
  let _ ← r.optional "time" Json.u64?
  let _ ← r.optional "blocktime" Json.u64?
  return { hex, blockHash }

/-- Where a block stands: negative confirmations mean off the main chain. -/
structure BlockPosition where
  confirmations : Int32
  height : UInt64

def BlockPosition.ofJson? (v : Json) : Option BlockPosition := do
  let r ← v.record? ["hash", "confirmations", "height", "version", "versionHex", "merkleroot", "time",
    "mediantime", "nonce", "bits", "difficulty", "chainwork", "nTx", "previousblockhash",
    "nextblockhash"]
  let _ ← r.required "hash" Json.hash256?
  let confirmations ← r.required "confirmations" Json.i32?
  let height ← r.required "height" Json.u64?
  let _ ← r.required "version" Json.i32?
  let _ ← r.defaulted "versionHex" Json.hex?
  let _ ← r.required "merkleroot" Json.hash256?
  let _ ← r.required "time" Json.u64?
  let _ ← r.optional "mediantime" Json.u64?
  let _ ← r.required "nonce" Json.u32?
  let _ ← r.required "bits" Json.text?
  let _ ← r.required "difficulty" Json.float?
  let _ ← r.required "chainwork" Json.hex?
  let _ ← r.required "nTx" Json.u64?
  let _ ← r.optional "previousblockhash" Json.hash256?
  let _ ← r.optional "nextblockhash" Json.hash256?
  return { confirmations, height }

def exportedKey? (v : Json) : Option ExportedKey := v.text?.bind ExportedKey.ofText?

def processedPacket? (v : Json) : Option String := do
  let r ← v.record? ["psbt", "complete"]
  let text ← r.required "psbt" Json.text?
  let _ ← r.required "complete" Json.bool?
  return text

end Node

end Countersign
