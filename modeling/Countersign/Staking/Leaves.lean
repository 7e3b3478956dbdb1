import Countersign.Bitcoin.Script
import Countersign.Staking.Error

/-!
# Leaf scripts of a stake

A stake can be spent by its staker alone once a relative lock time has passed, by the staker with a
quorum of the covenant committee, and, as a punishment, by staker, one finality provider and the
quorum together. Committees are multisignatures whose keys stand in ascending byte order, so their
order in the terms does not matter; a committee of one is a plain signature check.
-/

set_option autoImplicit false

namespace Countersign

/-- What a staker, the finality providers and the covenant committee agree on. -/
structure Terms where
  staker : XOnlyKey
  finalityProviders : List XOnlyKey
  covenants : List XOnlyKey
  quorum : UInt32
  lockTime : UInt16
  deriving DecidableEq

structure Leaves where
  timelock : Script
  unbonding : Script
  slashing : Script
  deriving DecidableEq

namespace Leaves

open Script

def sortKeys (keys : List XOnlyKey) : List XOnlyKey :=
  keys.mergeSort fun a b => Bytes.le a.bytes b.bytes

def repeated? : List XOnlyKey → Option XOnlyKey
  | a :: b :: r => if a = b then some a else repeated? (b :: r)
  | _ => none

def singleKey (key : XOnlyKey) (verify : Bool) : List Item :=
  [.key key, .op (if verify then .checkSigVerify else .checkSig)]

def tally (sorted : List XOnlyKey) (threshold : UInt32) (verify : Bool) : List Item :=
  match sorted with
  | [] => []
  | first :: rest =>
    singleKey first false ++ rest.flatMap (fun k => [.key k, .op .checkSigAdd]) ++
      [.number threshold, .op (if verify then .numEqualVerify else .numEqual)]

def multisig (group : KeyGroup) (keys : List XOnlyKey) (threshold : UInt32) (verify : Bool) :
    Except StakingError (List Item) :=
  if threshold = 0 ∨ threshold.toNat > keys.length then
    if keys.isEmpty then .error (.noKeys group)
    else .error (.invalidQuorum threshold keys.length)
  else
    match keys with
    | [key] => .ok (singleKey key verify)
    | _ =>
      let sorted := sortKeys keys
      match repeated? sorted with
      | some key => .error (.duplicateKey group key)
      | none => .ok (tally sorted threshold verify)

def timelockItems (key : XOnlyKey) (lockTime : UInt16) : List Item :=
  [.key key, .op .checkSigVerify, .number lockTime.toUInt32, .op .checkSequenceVerify]

def timelockScript (key : XOnlyKey) (lockTime : UInt16) : Script :=
  ofItems (timelockItems key lockTime)

end Leaves

open Leaves in
/-- The committee is judged before the finality providers, of whom one signature is enough. -/
def Terms.leaves (t : Terms) : Except StakingError Leaves := do
  if t.finalityProviders.isEmpty then throw (.noKeys .finalityProviders)
  let committee ← multisig .covenantCommittee t.covenants t.quorum false
  let providers ← multisig .finalityProviders t.finalityProviders 1 true
  let staker := singleKey t.staker true
  return {
    timelock := timelockScript t.staker t.lockTime
    unbonding := Script.ofItems (staker ++ committee)
    slashing := Script.ofItems (staker ++ providers ++ committee) }

end Countersign
