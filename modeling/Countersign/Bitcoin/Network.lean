import Countersign.Bitcoin.Script
import Countersign.Hash.Ripemd160
import Countersign.Text.Base58
import Countersign.Text.Bech32

/-!
# Networks, addresses and exported keys

An address writes an output script for one network. A wallet exports a secret key in checked base 58
behind a byte that tells the main network from the test networks; a further byte at the end says that
the key is used in compressed form.
-/

set_option autoImplicit false

namespace Countersign

inductive Network where
  | main
  | testnet
  | signet
  | regtest
  deriving DecidableEq, Repr

namespace Network

def addressPrefix : Network → String
  | .main => "bc"
  | .testnet => "tb"
  | .signet => "tb"
  | .regtest => "bcrt"

def taprootAddress (n : Network) (outputKey : XOnlyKey) : String :=
  Bech32.encode n.addressPrefix 1 outputKey.bytes

def keyHashAddress (n : Network) (key : PublicKey) : String :=
  Bech32.encode n.addressPrefix 0 (Ripemd160.hash160 key.bytes)

def prefixes : List String := [main, testnet, regtest].map addressPrefix

/-- The first byte of the hash of a key or a script, for the main and for the test networks. -/
def hashVersions : List UInt8 := [0x00, 0x6f, 0x05, 0xc4]

def isHashAddress (s : String) : Bool :=
  s.utf8ByteSize ≤ 50 &&
    match Base58.decodeChecked? s with
    | some b => b.length == 21 && hashVersions.contains (b.head?.getD 0)
    | none => false

def isAddress (s : String) : Bool :=
  match Bech32.prefix? s with
  | some hrp => prefixes.contains hrp
  | none => isHashAddress s

end Network

structure ExportedKey where
  secret : SecretKey
  compressed : Bool
  onMain : Bool
  deriving DecidableEq

namespace ExportedKey

def ofText? (s : String) : Option ExportedKey := do
  let b ← Base58.decodeChecked? s
  let compressed ← if b.length = 33 then some false else if b.length = 34 then some true else none
  let onMain ← match b.head? with
    | some 0x80 => some true
    | some 0xef => some false
    | _ => none
  let secret ← SecretKey.ofBytes? ((b.drop 1).take 32)
  return { secret, compressed, onMain }

end ExportedKey

end Countersign
