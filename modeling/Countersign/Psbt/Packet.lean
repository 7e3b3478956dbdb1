import Countersign.Psbt.Field
import Countersign.Signing.Request
import Countersign.Text.Base64

/-!
# Packets

A partially signed transaction travels with what its signers need: for each input the output it
spends, the leaf scripts that may be revealed, where keys come from, and the signatures made so far.
Only version 0 is read. Maps have canonical order, so writing a packet that was read makes it canonical.
-/

set_option autoImplicit false

namespace Countersign

structure LeafSignature where
  key : XOnlyKey
  leafHash : Hash256
  signature : Signature
  sighash : SighashType
  deriving DecidableEq

structure LeafScript where
  controlBlock : ControlBlock
  script : Script
  version : UInt8
  deriving DecidableEq

structure KeyOrigin where
  key : PublicKey
  origin : Bytes
  deriving DecidableEq

structure LeafKeyOrigin where
  key : XOnlyKey
  leaves : List Hash256
  origin : Bytes
  deriving DecidableEq

structure PsbtInput where
  witnessUtxo : Option TxOut
  sighashType : Option UInt32
  keyOrigins : List KeyOrigin
  leafSignatures : List LeafSignature
  leafScripts : List LeafScript
  leafKeyOrigins : List LeafKeyOrigin
  others : List Entry
  deriving DecidableEq

structure Psbt where
  transaction : Transaction
  globals : List Entry
  inputs : List PsbtInput
  outputs : List (List Entry)
  deriving DecidableEq

namespace KeyOrigin

def rank (o : KeyOrigin) : Bytes := o.key.bytes

def ofEntry? (e : Entry) : Option KeyOrigin := do
  return { key := ← PublicKey.ofBytes? e.key, origin := ← Field.keyOrigin? e.value }

def entry (o : KeyOrigin) : Entry := ⟨0x06, o.key.bytes, o.origin⟩

end KeyOrigin

namespace LeafSignature

def rank (s : LeafSignature) : Bytes := s.key.bytes ++ s.leafHash.bytes

def ofEntry? (e : Entry) : Option LeafSignature := do
  let key ← XOnlyKey.ofBytes? (e.key.take 32)
  let leafHash ← Hash256.ofBytes? (e.key.drop 32)
  let signature ← Signature.ofBytes? (e.value.take 64)
  match e.value.drop 64 with
  | [] => return { key, leafHash, signature, sighash := .default }
  | [b] => return { key, leafHash, signature, sighash := ← SighashType.ofByte? b }
  | _ => none

def entry (s : LeafSignature) : Entry :=
  ⟨0x14, s.rank, s.signature.bytes ++ if s.sighash = .default then [] else [s.sighash.byte]⟩

end LeafSignature

namespace LeafScript

/-- Scripts of the current leaf version stand before those of others. -/
def rank (s : LeafScript) : Bytes :=
  (if s.controlBlock.leafVersion = Taproot.tapscript then 0 else 1) :: s.controlBlock.encode

def ofEntry? (e : Entry) : Option LeafScript := do
  let controlBlock ← ControlBlock.ofBytes? e.key
  let version ← e.value.getLast?
  if TreeForm.isVersion version then return { controlBlock, script := e.value.dropLast, version }
  else none

def entry (s : LeafScript) : Entry := ⟨0x15, s.controlBlock.encode, s.script ++ [s.version]⟩

end LeafScript

namespace LeafKeyOrigin

def rank (o : LeafKeyOrigin) : Bytes := o.key.bytes

def ofEntry? (e : Entry) : Option LeafKeyOrigin := do
  let key ← XOnlyKey.ofBytes? e.key
  let (leaves, origin) ← Decoder.exactly Field.leafOrigins e.value
  return { key, leaves, origin }

def entry (o : LeafKeyOrigin) : Entry :=
  ⟨0x16, o.key.bytes, CompactSize.counted Hash256.bytes o.leaves ++ o.origin⟩

end LeafKeyOrigin

namespace PsbtInput

def empty : PsbtInput := ⟨none, none, [], [], [], [], []⟩

def insert (i : PsbtInput) (e : Entry) : Option PsbtInput :=
  match e.type with
  | 0x01 => do
    if i.witnessUtxo.isSome || !e.key.isEmpty then failure
    return { i with witnessUtxo := some (← Decoder.exactly Decoder.txOut e.value) }
  | 0x03 => do
    if i.sighashType.isSome || !e.key.isEmpty then failure
    return { i with sighashType := some (← Decoder.exactly Decoder.u32 e.value) }
  | 0x06 => do
    let keyOrigins ← insertRanked KeyOrigin.rank (← KeyOrigin.ofEntry? e) i.keyOrigins
    return { i with keyOrigins }
  | 0x14 => do
    let leafSignatures ←
      insertRanked LeafSignature.rank (← LeafSignature.ofEntry? e) i.leafSignatures
    return { i with leafSignatures }
  | 0x15 => do
    let leafScripts ← insertRanked LeafScript.rank (← LeafScript.ofEntry? e) i.leafScripts
    return { i with leafScripts }
  | 0x16 => do
    let leafKeyOrigins ←
      insertRanked LeafKeyOrigin.rank (← LeafKeyOrigin.ofEntry? e) i.leafKeyOrigins
    return { i with leafKeyOrigins }
  | _ => do
    let others ← insertRanked (Field.rank Field.inputTypes) (← Field.input e) i.others
    return { i with others }

def isKnown (e : Entry) : Bool := Field.inputTypes.contains e.type

def ownEntries (i : PsbtInput) : List Entry :=
  (i.witnessUtxo.map fun o => ⟨0x01, [], o.encode⟩).toList ++
    (i.sighashType.map fun t => ⟨0x03, [], encodeU32 t⟩).toList ++
    i.keyOrigins.map KeyOrigin.entry ++ i.leafSignatures.map LeafSignature.entry ++
    i.leafScripts.map LeafScript.entry ++ i.leafKeyOrigins.map LeafKeyOrigin.entry

def entries (i : PsbtInput) : List Entry :=
  ((i.others.filter isKnown ++ i.ownEntries).mergeSort fun a b => a.type ≤ b.type) ++
    i.others.filter (!isKnown ·)

end PsbtInput

namespace Psbt

def magic : Bytes := Utf8.encode "psbt" ++ [0xff]

def ofTransaction (t : Transaction) : Psbt :=
  { transaction := t, globals := [], inputs := t.inputs.map fun _ => .empty
    outputs := t.outputs.map fun _ => [] }

def encode (p : Psbt) : Bytes :=
  magic ++ Entry.encodeMap (⟨0x00, [], p.transaction.encodeBare⟩ ::
      p.globals.filter fun e => e.type ≠ 0xfb) ++
    p.inputs.flatMap (fun i => Entry.encodeMap i.entries) ++ p.outputs.flatMap Entry.encodeMap

def text (p : Psbt) : String := Base64.encode p.encode

def transaction? (entries : List Entry) : Option Transaction :=
  match entries.filter fun e => e.type = 0x00 with
  | [e] =>
    if e.key.isEmpty then
      match Decoder.exactly Decoder.unsigned e.value with
      | some t => if t.inputs.all fun i => i.scriptSig.isEmpty then some t else none
      | none => none
    else none
  | _ => none

def globals? : List Entry → Option (List Entry)
  | [] => some []
  | e :: r => do
    let rest ← globals? r
    if e.type = 0x00 then return rest
    insertRanked Field.globalRank (← Field.globalField e) rest

def input? (entries : List Entry) : Option PsbtInput := entries.foldlM PsbtInput.insert .empty

def output? : List Entry → Option (List Entry)
  | [] => some []
  | e :: r => do insertRanked (Field.rank Field.outputTypes) (← Field.output e) (← output? r)

def lift {α : Type} : Option α → Decoder α
  | some a => pure a
  | none => failure

/-- Only the first map has a limit as a whole. What follows the last one is not looked at. -/
def decoder : Decoder Psbt := do
  let start ← Decoder.take magic.length
  Decoder.require (start == magic)
  let first ← Decoder.within Decoder.maxBytes Decoder.entries
  let transaction ← lift (transaction? first)
  let globals ← lift (globals? first)
  let inputs ← Decoder.times transaction.inputs.length do lift (input? (← Decoder.entries))
  let outputs ← Decoder.times transaction.outputs.length do lift (output? (← Decoder.entries))
  return { transaction, globals, inputs, outputs }

def decode? (b : Bytes) : Option Psbt := (decoder b).map Prod.fst

def ofText? (s : String) : Option Psbt := (Base64.decode? s).bind decode?

end Psbt

end Countersign
