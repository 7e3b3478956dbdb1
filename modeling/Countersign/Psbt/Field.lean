import Countersign.Curve.Key
import Countersign.Hash.Ripemd160
import Countersign.Psbt.Der
import Countersign.Psbt.Entry
import Countersign.Psbt.TreeForm

/-!
# Fields that are passed through

A packet may carry fields that covenant signing has no use for. They still have to be well-formed, and
they are written again in canonical form and in canonical order: known fields by type and key, then
proprietary ones by owner, then unknown ones.
-/

set_option autoImplicit false

namespace Countersign.Field

def keyOrigin? (b : Bytes) : Option Bytes :=
  if 4 ≤ b.length ∧ b.length % 4 = 0 then some b else none

def leafOrigins : Decoder (List Hash256 × Bytes) := do
  let leaves ← Decoder.counted Decoder.hash256
  let rest ← get
  set ([] : Bytes)
  match keyOrigin? rest with
  | some origin => return (leaves, origin)
  | none => failure

def whole {α : Type} (d : Decoder α) (encode : α → Bytes) (b : Bytes) : Option Bytes :=
  (Decoder.exactly d b).map encode

def ofLength (n : Nat) (b : Bytes) : Option Bytes := if b.length = n then some b else none

def witness (b : Bytes) : Option Bytes :=
  whole Decoder.witness (CompactSize.counted CompactSize.sized) b

def sighashOfSignature (b : UInt8) : Bool := [0x01, 0x02, 0x03, 0x81, 0x82, 0x83].contains b

def ecdsaSignature (b : Bytes) : Option Bytes := do
  let last ← b.getLast?
  if !sighashOfSignature last then failure
  return Der.encode (← Der.decode? b.dropLast) ++ [last]

/-- A 64-byte signature, with a byte that says what it covers unless that is the default. -/
def taprootSignature (b : Bytes) : Option Bytes :=
  if b.length = 64 then some b
  else if b.length = 65 then
    match b.getLast? with
    | some 0 => some b.dropLast
    | some last => if sighashOfSignature last then some b else none
    | none => none
  else none

/-- A public key keeps its written form here, but the hybrid one is not accepted. -/
def anyPublicKey (b : Bytes) : Option Bytes :=
  if b.length = 33 ∨ b.head? = some 4 then (PublicKey.ofBytes? b).map fun _ => b else none

def fullKey (b : Bytes) : Option Bytes := (PublicKey.ofBytes? b).map PublicKey.bytes

def xOnlyKey (b : Bytes) : Option Bytes := (XOnlyKey.ofBytes? b).map XOnlyKey.bytes

def preimage (hash : Bytes → Bytes) (e : Entry) : Option Entry :=
  if hash e.value = e.key then some e else none

def single (canonical : Bytes → Option Bytes) (e : Entry) : Option Entry :=
  if e.key.isEmpty then (canonical e.value).map fun v => { e with value := v } else none

def keyed (key value : Bytes → Option Bytes) (e : Entry) : Option Entry := do
  if e.key.isEmpty then failure
  return { e with key := ← key e.key, value := ← value e.value }

def proprietaryKey : Decoder (Bytes × UInt8 × Bytes) := do
  let owner ← Decoder.sized
  let subtype ← Decoder.byte
  let rest ← get
  set ([] : Bytes)
  Decoder.require (rest.length ≤ 1024)
  return (owner, subtype, rest)

def isProprietary (e : Entry) : Bool := e.type == 0xfc

def proprietary (e : Entry) : Option Entry :=
  (Decoder.exactly proprietaryKey e.key).map fun _ => e

def input (e : Entry) : Option Entry :=
  match e.type with
  | 0x00 => single (whole Decoder.transaction Transaction.encode) e
  | 0x02 => keyed anyPublicKey ecdsaSignature e
  | 0x04 => single some e
  | 0x05 => single some e
  | 0x07 => single some e
  | 0x08 => single witness e
  | 0x0a => preimage Ripemd160.hash e
  | 0x0b => preimage Sha256.hash e
  | 0x0c => preimage Ripemd160.hash160 e
  | 0x0d => preimage Sha256.double e
  | 0x13 => single taprootSignature e
  | 0x17 => single xOnlyKey e
  | 0x18 => single (ofLength 32) e
  | 0xfc => proprietary e
  | _ => some e

def output (e : Entry) : Option Entry :=
  match e.type with
  | 0x00 => single some e
  | 0x01 => single some e
  | 0x02 => keyed fullKey keyOrigin? e
  | 0x05 => single xOnlyKey e
  | 0x06 => single TreeForm.canonical? e
  | 0x07 => keyed xOnlyKey (whole leafOrigins fun p => CompactSize.counted Hash256.bytes p.1 ++ p.2) e
  | 0xfc => proprietary e
  | _ => some e

/-- A version byte string for the main or the test networks, and 74 bytes of which the last 33 are a
public key. -/
def extendedKey (b : Bytes) : Option Bytes :=
  if b.length = 78 ∧ ([[0x04, 0x88, 0xb2, 0x1e], [0x04, 0x35, 0x87, 0xcf]].contains (b.take 4)) ∧
      (PublicKey.ofBytes? (b.drop 45)).isSome then some b
  else none

def globalField (e : Entry) : Option Entry :=
  match e.type with
  | 0x01 => keyed extendedKey keyOrigin? e
  | 0xfb => if e.key.isEmpty ∧ e.value = [0, 0, 0, 0] then some e else none
  | 0xfc => proprietary e
  | _ => some e

def delimited (b : Bytes) : Bytes := b.flatMap (fun x => [1, x]) ++ [0]

def proprietaryRank (e : Entry) : Bytes :=
  match Decoder.exactly proprietaryKey e.key with
  | some (owner, subtype, rest) => 1 :: delimited owner ++ subtype :: rest
  | none => 1 :: e.key

def inputTypes : List UInt8 :=
  [0x00, 0x02, 0x04, 0x05, 0x07, 0x08, 0x0a, 0x0b, 0x0c, 0x0d, 0x13, 0x17, 0x18]

def outputTypes : List UInt8 := [0x00, 0x01, 0x02, 0x05, 0x06, 0x07]

def globalTypes : List UInt8 := [0x01, 0xfb]

/-- Uncompressed keys stand before compressed ones, which the first byte of a key tells backwards. -/
def keyRank (e : Entry) : Bytes := (if e.key.length = 65 then 0 else 1) :: e.key

/-- Extended keys are ordered with the public key before the chain code. -/
def extendedKeyRank (b : Bytes) : Bytes :=
  (if b.take 4 = [0x04, 0x88, 0xb2, 0x1e] then 0 else 1) :: (b.drop 4).take 9 ++ b.drop 45 ++
    (b.drop 13).take 32

def rank (known : List UInt8) (e : Entry) : Bytes :=
  if isProprietary e then proprietaryRank e
  else if known.contains e.type then 0 :: e.type :: keyRank e
  else 2 :: e.type :: e.key

def globalRank (e : Entry) : Bytes :=
  if e.type = 0x01 then 0 :: e.type :: extendedKeyRank e.key else rank globalTypes e

end Countersign.Field
