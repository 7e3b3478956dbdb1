import Countersign.Staking.Announcement
import Countersign.Staking.LockedOutput

/-!
# Stakes

A transaction is a stake under a tag and a committee when exactly one of its outputs is an
announcement, that one carries the tag, and exactly one output pays the staking script that the
announced keys and time make with the committee. `Stake.plan` makes the two outputs.
-/

set_option autoImplicit false

namespace Countersign

structure Stake where
  stakingOutput : TxOut
  stakingIndex : Nat
  announcementOutput : TxOut
  announcementIndex : Nat
  announcement : Announcement
  deriving DecidableEq

namespace Stake

def announcements (outputs : List (TxOut × Nat)) : List (Announcement × TxOut × Nat) :=
  outputs.filterMap fun (o, i) => (Announcement.ofTxOut o).toOption.map (·, o, i)

def soleAnnouncement (outputs : List (TxOut × Nat)) :
    Except StakingError (Announcement × TxOut × Nat) :=
  match announcements outputs with
  | [] => .error .missingOpReturn
  | [a] => .ok a
  | _ => .error .multipleOpReturns

def solePayment (outputs : List (TxOut × Nat)) (script : Script) : Except StakingError (TxOut × Nat) :=
  match outputs.filter fun (o, _) => o.script = script with
  | [] => .error .missingStakingOutput
  | [o] => .ok o
  | _ => .error .multipleStakingOutputs

def terms (staker finalityProvider : XOnlyKey) (covenants : List XOnlyKey) (quorum : UInt32)
    (lockTime : UInt16) : Terms :=
  { staker, finalityProviders := [finalityProvider], covenants, quorum, lockTime }

def announcedTerms (a : Announcement) (covenants : List XOnlyKey) (quorum : UInt32) : Terms :=
  terms a.staker a.finalityProvider covenants quorum a.time

def recognise (t : Transaction) (tag : Bytes) (covenants : List XOnlyKey) (quorum : UInt32) :
    Except StakingError Stake := do
  if t.outputs.length < 2 then throw (.notEnoughOutputs t.outputs.length)
  if tag.length ≠ 4 then throw (.invalidTagLength tag.length)
  let outputs := t.outputs.zipIdx
  let (announcement, announcementOutput, announcementIndex) ← soleAnnouncement outputs
  if announcement.tag.bytes ≠ tag then throw (.tagMismatch tag announcement.tag.bytes)
  let locked ← LockedOutput.build .staking (announcedTerms announcement covenants quorum) 0
  let (stakingOutput, stakingIndex) ← solePayment outputs locked.script
  return { stakingOutput, stakingIndex, announcementOutput, announcementIndex, announcement }

/-- A staking output, its announcement, and a transaction that carries the two in this order and still
lacks inputs. -/
structure Plan where
  staking : LockedOutput
  announcement : Announcement
  transaction : Transaction

def plan (tag : Bytes) (t : Terms) (finalityProvider : XOnlyKey) (value : Amount) :
    Except StakingError Plan := do
  let staking ← LockedOutput.build .staking { t with finalityProviders := [finalityProvider] } value
  let announcement ← Announcement.create tag t.staker finalityProvider t.lockTime
  return {
    staking, announcement
    transaction := ⟨2, [], [staking.txOut, announcement.txOut], 0⟩ }

end Stake

end Countersign
