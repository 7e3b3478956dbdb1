import Countersign.Bitcoin.Taproot

/-!
# The message of a tapscript signature

A signature with the default hash type that spends the only input of a transaction through a leaf
commits to the transaction without its witness, to the output being spent and to the leaf. Each
variable-length part enters by a hash of its own, and `parts` lists those.
-/

set_option autoImplicit false

namespace Countersign

namespace Sighash

def tag : Bytes := Utf8.encode "TapSighash"

def spendType : UInt8 := 2

def outputsPart (t : Transaction) : Bytes := t.outputs.flatMap TxOut.encode

/-- What is signed when `input`, the only input of `t`, spends `funding` through the leaf. -/
def preimage (t : Transaction) (input : TxIn) (funding : TxOut) (leafHash : Hash256) : Bytes :=
  [0, 0] ++ t.encodeVersion ++ encodeU32 t.lockTime ++
    Sha256.hash input.previous.encode ++ Sha256.hash (encodeU64 funding.value) ++
    Sha256.hash (CompactSize.sized funding.script) ++ Sha256.hash (encodeU32 input.sequence) ++
    Sha256.hash (outputsPart t) ++ [spendType] ++ encodeU32 0 ++ leafHash.bytes ++ [0] ++
    encodeU32 0xffffffff

def digest (t : Transaction) (input : TxIn) (funding : TxOut) (leafHash : Hash256) : Bytes :=
  Sha256.tagged tag (preimage t input funding leafHash)

end Sighash

end Countersign
