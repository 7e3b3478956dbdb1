import Countersign.Bitcoin.Taproot

/-!
# Script trees in packets

An output may list the leaves of its tree in depth-first order, each with its depth. Nodes that wait
for a sibling stand on a branch, at most one per depth, and two nodes meet as soon as they are siblings.
The written form lists the leaves of the smaller of two siblings first.
-/

set_option autoImplicit false

namespace Countersign.TreeForm

structure Leaf where
  depth : UInt8
  version : UInt8
  script : Script
  deriving DecidableEq

structure Node where
  hash : Hash256
  leaves : List Leaf

def leafHash (version : UInt8) (script : Script) : Hash256 :=
  ⟨Sha256.tagged Taproot.leafTag (version :: CompactSize.sized script), Sha256.tagged_length _ _⟩

def combine (a b : Node) : Node :=
  ⟨Taproot.branchHash a.hash b.hash,
    if Bytes.le a.hash.bytes b.hash.bytes then a.leaves ++ b.leaves else b.leaves ++ a.leaves⟩

/-- Adds a node at a depth to a branch, which lists the waiting nodes from the deepest place up. The
root never waits for a sibling. -/
def place : Nat → Node → List (Option Node) → Option (List (Option Node))
  | depth, node, branch =>
    if depth + 1 < branch.length then none
    else if branch.length = depth + 1 then
      match depth, branch with
      | 0, some _ :: _ => none
      | d + 1, some child :: rest => place d (combine node child) rest
      | _, none :: rest => some (some node :: rest)
      | _, [] => some [some node]
    else some (some node :: (List.replicate (depth - branch.length) none ++ branch))

def isVersion (v : UInt8) : Bool := v % 2 == 0 && v != 0x50

def leaf : Decoder Leaf := do
  let depth ← Decoder.byte
  let version ← Decoder.byte
  let script ← Decoder.sized
  Decoder.require (isVersion version && depth.toNat ≤ ControlBlock.maxDepth)
  return { depth, version, script }

def build : Nat → List (Option Node) → Decoder (List (Option Node))
  | 0, branch => pure branch
  | fuel + 1, branch => do
    if (← get).isEmpty then return branch
    let l ← leaf
    match place l.depth.toNat ⟨leafHash l.version l.script, [l]⟩ branch with
    | some branch => build fuel branch
    | none => failure

def Leaf.encode (l : Leaf) : Bytes := l.depth :: l.version :: CompactSize.sized l.script

def canonical? (b : Bytes) : Option Bytes :=
  match Decoder.exactly (build b.length []) b with
  | some [some root] => some (root.leaves.flatMap Leaf.encode)
  | _ => none

end Countersign.TreeForm
