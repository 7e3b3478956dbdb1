import Countersign.Bitcoin.Amount
import Countersign.Bitcoin.Decoder
import Countersign.Hash.Sha256
import Countersign.Hex

/-!
# Transactions

A transaction spends outpoints and creates outputs. Its serialization has a marker and flag in front
of the inputs and the witnesses behind the outputs when some input has a witness, and also when there
are no inputs, since an empty input count would otherwise read as the marker. Decoding accepts
exactly these serializations. The transaction id hashes the form without witnesses.
-/

set_option autoImplicit false

namespace Countersign

/-- A 32-byte hash of a transaction or block, whose text shows the last byte first. -/
structure Hash256 where
  bytes : Bytes
  length_eq : bytes.length = 32
  deriving DecidableEq

namespace Hash256

def ofBytes? (b : Bytes) : Option Hash256 :=
  if h : b.length = 32 then some ⟨b, h⟩ else none

def text (h : Hash256) : String := Hex.encode h.bytes.reverse

def ofText? (s : String) : Option Hash256 := (Hex.decode? s).bind fun b => ofBytes? b.reverse

theorem ofBytes?_bytes (h : Hash256) : ofBytes? h.bytes = some h := by
  simp [ofBytes?, h.length_eq]

theorem bytes_injective {a b : Hash256} (h : a.bytes = b.bytes) : a = b := by
  cases a
  cases b
  simp_all

end Hash256

abbrev Script := Bytes

structure OutPoint where
  txid : Hash256
  vout : UInt32
  deriving DecidableEq

structure TxIn where
  previous : OutPoint
  scriptSig : Script
  sequence : UInt32
  witness : List Bytes
  deriving DecidableEq

structure TxOut where
  value : Amount
  script : Script
  deriving DecidableEq

structure Transaction where
  version : Int32
  inputs : List TxIn
  outputs : List TxOut
  lockTime : UInt32
  deriving DecidableEq

def encodeU32 (n : UInt32) : Bytes := Bytes.ofNatLE 4 n.toNat

def encodeU64 (n : UInt64) : Bytes := Bytes.ofNatLE 8 n.toNat

namespace OutPoint

def encode (o : OutPoint) : Bytes := o.txid.bytes ++ encodeU32 o.vout

end OutPoint

namespace TxIn

def encode (i : TxIn) : Bytes :=
  i.previous.encode ++ CompactSize.sized i.scriptSig ++ encodeU32 i.sequence

def encodeWitness (i : TxIn) : Bytes := CompactSize.counted CompactSize.sized i.witness

end TxIn

namespace TxOut

def encode (o : TxOut) : Bytes := encodeU64 o.value ++ CompactSize.sized o.script

end TxOut

namespace Decoder

def hash256 : Decoder Hash256 := do
  match Hash256.ofBytes? (← take 32) with
  | some h => return h
  | none => failure

def int32 : Decoder Int32 := do
  return (← u32).toInt32

def txIn : Decoder TxIn := do
  let txid ← hash256
  let vout ← u32
  let scriptSig ← sized
  let sequence ← u32
  return ⟨⟨txid, vout⟩, scriptSig, sequence, []⟩

def txOut : Decoder TxOut := do
  let value ← u64
  let script ← sized
  return ⟨value, script⟩

/-- The limit is on the elements with their lengths, behind the count. -/
def witness : Decoder (List Bytes) := do
  within maxBytes (times (← compactSize) sized)

def witnesses : List TxIn → Decoder (List TxIn)
  | [] => pure []
  | i :: r => do
    let witness ← witness
    let rest ← witnesses r
    return { i with witness } :: rest

/-- What follows the marker: the flag, then the form with witnesses, at least one of which is not
empty unless there are no inputs. -/
def flagged (version : Int32) : Decoder Transaction := do
  let flag ← byte
  require (flag == 1)
  let bare ← counted txIn
  let outputs ← counted txOut
  let inputs ← witnesses bare
  require (inputs.isEmpty || inputs.any fun i => !i.witness.isEmpty)
  let lockTime ← u32
  return { version, inputs, outputs, lockTime }

def transaction : Decoder Transaction := do
  let version ← int32
  let inputs ← counted txIn
  if inputs.isEmpty then flagged version
  else
    let outputs ← counted txOut
    let lockTime ← u32
    return { version, inputs, outputs, lockTime }

/-- The form without witnesses, in which an empty input list means just that. -/
def unsigned : Decoder Transaction := do
  let version ← int32
  let inputs ← counted txIn
  let outputs ← counted txOut
  let lockTime ← u32
  return { version, inputs, outputs, lockTime }

end Decoder

namespace Transaction

def encodeVersion (t : Transaction) : Bytes := encodeU32 t.version.toUInt32

def hasWitnessForm (t : Transaction) : Bool :=
  t.inputs.isEmpty || t.inputs.any fun i => !i.witness.isEmpty

def encodeBare (t : Transaction) : Bytes :=
  t.encodeVersion ++ CompactSize.counted TxIn.encode t.inputs ++
    CompactSize.counted TxOut.encode t.outputs ++ encodeU32 t.lockTime

def encode (t : Transaction) : Bytes :=
  if t.hasWitnessForm then
    t.encodeVersion ++ [0, 1] ++ CompactSize.counted TxIn.encode t.inputs ++
      CompactSize.counted TxOut.encode t.outputs ++ t.inputs.flatMap TxIn.encodeWitness ++
      encodeU32 t.lockTime
  else t.encodeBare

def decode? (b : Bytes) : Option Transaction := Decoder.exactly Decoder.transaction b

def maxTextBytes : Nat := 4000000

def ofText? (s : String) : Option Transaction :=
  (Hex.decode? s).bind fun b => if b.length ≤ maxTextBytes then decode? b else none

def text (t : Transaction) : String := Hex.encode t.encode

def txid (t : Transaction) : Hash256 := ⟨Sha256.double t.encodeBare, Sha256.hash_length _⟩

end Transaction

end Countersign
