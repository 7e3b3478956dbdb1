import Countersign.Bitcoin.Script

/-!
# Taproot

An output commits to a tree of leaf scripts: its key is the internal key moved by a hash of that key
and the tree's root. A leaf is revealed with a control block, which holds the internal key, the
parity of the output key and the hashes on the way from the leaf to the root. The two children of a
branch are hashed in byte order, so the path needs no directions.
-/

set_option autoImplicit false

namespace Countersign

namespace Taproot

def leafTag : Bytes := Utf8.encode "TapLeaf"

def branchTag : Bytes := Utf8.encode "TapBranch"

def tweakTag : Bytes := Utf8.encode "TapTweak"

def tapscript : UInt8 := 0xc0

def leafPreimage (script : Script) : Bytes := tapscript :: CompactSize.sized script

def leafHash (script : Script) : Hash256 :=
  ⟨Sha256.tagged leafTag (leafPreimage script), Sha256.tagged_length _ _⟩

def branchPreimage (a b : Hash256) : Bytes :=
  if Bytes.le a.bytes b.bytes then a.bytes ++ b.bytes else b.bytes ++ a.bytes

def branchHash (a b : Hash256) : Hash256 :=
  ⟨Sha256.tagged branchTag (branchPreimage a b), Sha256.tagged_length _ _⟩

inductive Tree where
  | leaf (script : Script)
  | branch (left right : Tree)
  deriving DecidableEq

namespace Tree

def root : Tree → Hash256
  | .leaf s => leafHash s
  | .branch l r => branchHash l.root r.root

def shorter : Option (List Hash256) → Option (List Hash256) → Option (List Hash256)
  | some p, some q => if q.length < p.length then some q else some p
  | some p, none => some p
  | none, q => q

/-- The sibling hashes from a leaf with this script up to the root, along the shortest way. -/
def path? (script : Script) : Tree → Option (List Hash256)
  | .leaf s => if s = script then some [] else none
  | .branch l r =>
    shorter ((l.path? script).map (· ++ [r.root])) ((r.path? script).map (· ++ [l.root]))

end Tree

def tweak (key : XOnlyKey) (root : Hash256) : Nat :=
  Bytes.toNatBE (Sha256.tagged tweakTag (key.bytes ++ root.bytes))

def outputKey? (internal : XOnlyKey) (root : Hash256) : Option PublicKey :=
  internal.tweak? (tweak internal root)

end Taproot

/-- Reveals a leaf. The low bit of the first byte is the parity of the output key and the rest of it
the version of the leaf, which may not look like an annex. -/
structure ControlBlock where
  leafVersion : UInt8
  odd : Bool
  internalKey : XOnlyKey
  path : List Hash256
  deriving DecidableEq

namespace ControlBlock

def encode (c : ControlBlock) : Bytes :=
  (c.leafVersion ||| (if c.odd then 1 else 0)) :: c.internalKey.bytes ++
    c.path.flatMap Hash256.bytes

def maxDepth : Nat := 128

def pathOf? : Nat → Bytes → Option (List Hash256)
  | 0, b => if b.isEmpty then some [] else none
  | k + 1, b => do
    let h ← Hash256.ofBytes? (b.take 32)
    let r ← pathOf? k (b.drop 32)
    return h :: r

def ofBytes? (b : Bytes) : Option ControlBlock :=
  match b with
  | [] => none
  | first :: rest =>
    let hashes := rest.drop 32
    let leafVersion := first &&& 0xfe
    if hashes.length % 32 = 0 ∧ hashes.length / 32 ≤ maxDepth ∧ leafVersion ≠ 0x50 then do
      let internalKey ← XOnlyKey.ofBytes? (rest.take 32)
      let path ← pathOf? (hashes.length / 32) hashes
      return { leafVersion, odd := first &&& 1 == 1, internalKey, path }
    else none

end ControlBlock

end Countersign
