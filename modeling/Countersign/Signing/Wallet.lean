import Countersign.Node.Result
import Countersign.Signing.Packet
import Countersign.Signing.SecretKey

/-!
# Signing through a wallet

A wallet either processes a packet and keeps its key, or exports the key, which then signs here. In
both ways the node is only asked when the transaction is a plain transfer.
-/

set_option autoImplicit false

namespace Countersign

inductive SignerType where
  | psbt
  | privkey
  deriving DecidableEq, Repr

namespace SignerType

def text : SignerType → String
  | .psbt => "psbt"
  | .privkey => "privkey"

def ofText? (s : String) : Option SignerType := [psbt, privkey].find? fun t => t.text == s

end SignerType

namespace Wallet

def exportKey (address : String) : ExceptT NodeError (Dialogue Rpc) ExportedKey :=
  Rpc.call "dumpprivkey" [Json.ofText address] Node.exportedKey?

def process (p : Psbt) : ExceptT NodeError (Dialogue Rpc) Psbt := do
  let text ← Rpc.call "walletprocesspsbt" [Json.ofText p.text, .bool true] Node.processedPacket?
  match Psbt.ofText? text with
  | some p => return p
  | none => throw .invalidPsbt

def settle {α : Type} (e : Except BackendError α) : ExceptT BackendError (Dialogue Rpc) α :=
  ExceptT.mk (.done e)

def checkTransfer (r : SigningRequest) : ExceptT BackendError (Dialogue Rpc) Unit :=
  settle ((r.transaction.simpleTransfer.mapError .invalidTransaction).map fun _ => ())

def signByPacket (r : SigningRequest) : ExceptT BackendError (Dialogue Rpc) Signature := do
  checkTransfer r
  let packet ← settle r.packet
  let signed ← (process packet).adapt .psbtSign
  settle (r.extract signed)

def signByKey (r : SigningRequest) : ExceptT BackendError (Dialogue Rpc) Signature := do
  checkTransfer r
  let key ← (exportKey r.walletAddress).adapt .keyRetrieval
  settle (r.signErasing key.secret).1

def sign : SignerType → SigningRequest → ExceptT BackendError (Dialogue Rpc) Signature
  | .psbt => signByPacket
  | .privkey => signByKey

end Wallet

end Countersign
