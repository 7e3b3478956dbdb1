import Countersign.Bitcoin.Script
import Countersign.Staking.Error

/-!
# Announcements

A staking transaction carries an unspendable output that says who stakes to whom and for how long:
a tag of four bytes, a version, the keys of staker and finality provider and the time. Only version 0
is read.
-/

set_option autoImplicit false

namespace Countersign

structure Tag where
  bytes : Bytes
  length_eq : bytes.length = 4
  deriving DecidableEq

namespace Tag

def ofBytes? (b : Bytes) : Option Tag := if h : b.length = 4 then some ⟨b, h⟩ else none

theorem ofBytes?_bytes (t : Tag) : ofBytes? t.bytes = some t := by
  simp [ofBytes?, t.length_eq]

end Tag

structure Announcement where
  tag : Tag
  version : UInt8
  staker : XOnlyKey
  finalityProvider : XOnlyKey
  time : UInt16
  deriving DecidableEq

namespace Announcement

def size : Nat := 71

def create (tag : Bytes) (staker finalityProvider : XOnlyKey) (time : UInt16) :
    Except StakingError Announcement :=
  match Tag.ofBytes? tag with
  | some tag => .ok { tag, version := 0, staker, finalityProvider, time }
  | none => .error (.invalidTagLength tag.length)

def encode (a : Announcement) : Bytes :=
  a.tag.bytes ++ a.version :: (a.staker.bytes ++ a.finalityProvider.bytes ++
    Bytes.ofNatBE 2 a.time.toNat)

def decode (b : Bytes) : Except StakingError Announcement :=
  match Tag.ofBytes? (b.take 4), b.drop 4 with
  | some tag, version :: rest =>
    if b.length ≠ size then .error (.invalidOpReturn (.length b.length))
    else if version ≠ 0 then .error (.unsupportedVersion version)
    else
      match XOnlyKey.ofBytes? (rest.take 32), XOnlyKey.ofBytes? ((rest.drop 32).take 32) with
      | none, _ => .error (.invalidOpReturn .stakerKey)
      | some _, none => .error (.invalidOpReturn .finalityProviderKey)
      | some staker, some finalityProvider =>
        .ok { tag, version, staker, finalityProvider,
              time := UInt16.ofNat (Bytes.toNatBE (rest.drop 64)) }
  | _, _ => .error (.invalidOpReturn (.length b.length))

def script (a : Announcement) : Script := 0x6a :: 0x47 :: a.encode

def txOut (a : Announcement) : TxOut := ⟨0, a.script⟩

def ofScript (s : Script) : Except StakingError Announcement :=
  match s with
  | 0x6a :: 0x47 :: payload =>
    if payload.length = size then decode payload else .error (.invalidOpReturn .notOpReturn)
  | _ => .error (.invalidOpReturn .notOpReturn)

def ofTxOut (o : TxOut) : Except StakingError Announcement := ofScript o.script

end Announcement

end Countersign
