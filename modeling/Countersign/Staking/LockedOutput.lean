import Countersign.Bitcoin.Network
import Countersign.Bitcoin.Taproot
import Countersign.Staking.Leaves

/-!
# Locked outputs

A staking output commits to all three leaves, with the two everyday ones below a common branch. The
output of an unbonding transaction keeps the punishment and the lock time and drops the early exit.
Nobody knows the discrete logarithm of the internal key, so every spend reveals a leaf.
-/

set_option autoImplicit false

namespace Countersign

def unspendableKeyBytes : Bytes :=
  [0x50, 0x92, 0x9b, 0x74, 0xc1, 0xa0, 0x49, 0x54, 0xb7, 0x8b, 0x4b, 0x60, 0x35, 0xe9, 0x7a, 0x5e,
   0x07, 0x8a, 0x5a, 0x0f, 0x28, 0xec, 0x96, 0xd5, 0x47, 0xbf, 0xee, 0x9a, 0xce, 0x80, 0x3a, 0xc0]

/-- The point whose x coordinate is the hash of the generator. -/
def unspendableKey : XOnlyKey := ⟨unspendableKeyBytes, by decide +kernel⟩

inductive LockKind where
  | staking
  | unbonding
  deriving DecidableEq, Repr

def LockKind.tree (k : LockKind) (l : Leaves) : Taproot.Tree :=
  match k with
  | .staking => .branch (.branch (.leaf l.timelock) (.leaf l.unbonding)) (.leaf l.slashing)
  | .unbonding => .branch (.leaf l.timelock) (.leaf l.slashing)

/-- A leaf and the proof that an output key commits to it. -/
structure RevealedLeaf where
  controlBlock : ControlBlock
  script : Script
  deriving DecidableEq

def RevealedLeaf.leafHash (r : RevealedLeaf) : Hash256 := Taproot.leafHash r.script

structure LockedOutput where
  kind : LockKind
  leaves : Leaves
  outputKey : PublicKey
  value : Amount
  deriving DecidableEq

namespace LockedOutput

def build (kind : LockKind) (terms : Terms) (value : Amount) : Except StakingError LockedOutput := do
  let leaves ← terms.leaves
  match Taproot.outputKey? unspendableKey (kind.tree leaves).root with
  | none => throw .untweakable
  | some outputKey => return { kind, leaves, outputKey, value }

def tree (o : LockedOutput) : Taproot.Tree := o.kind.tree o.leaves

def script (o : LockedOutput) : Script := Script.taproot o.outputKey.xOnly

def txOut (o : LockedOutput) : TxOut := ⟨o.value, o.script⟩

def address (o : LockedOutput) (n : Network) : String := n.taprootAddress o.outputKey.xOnly

def reveal (o : LockedOutput) (script : Script) : Except StakingError RevealedLeaf :=
  match o.tree.path? script with
  | none => .error .missingLeaf
  | some path => .ok ⟨⟨Taproot.tapscript, o.outputKey.odd, unspendableKey, path⟩, script⟩

def timelockPath (o : LockedOutput) : Except StakingError RevealedLeaf := o.reveal o.leaves.timelock

def unbondingPath (o : LockedOutput) : Except StakingError RevealedLeaf :=
  o.reveal o.leaves.unbonding

def slashingPath (o : LockedOutput) : Except StakingError RevealedLeaf := o.reveal o.leaves.slashing

end LockedOutput

end Countersign
