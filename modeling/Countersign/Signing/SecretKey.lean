import Countersign.Signing.Request
import Countersign.Staking.Spend

/-!
# Signing with an exported key

A key signs only for its own public key, parity included. Whatever comes of it, the key is overwritten
afterwards.
-/

set_option autoImplicit false

namespace Countersign

def SecretKey.erased : SecretKey :=
  ⟨Bytes.toNatBE (List.replicate 32 1), by decide +kernel, by decide +kernel⟩

namespace SigningRequest

def signWith (r : SigningRequest) (secret : SecretKey) : Except BackendError Signature :=
  match KeyPair.ofSecret? secret with
  | none => .error (.keyMismatch r.covenantKey)
  | some pair =>
    if pair.publicKey ≠ r.covenantKey then .error (.keyMismatch r.covenantKey)
    else (r.transaction.signSpend r.stakingOutput pair r.path.leafHash).mapError .signing

def isSignedBy (r : SigningRequest) (s : Signature) : Bool :=
  (r.transaction.verifySpend r.stakingOutput r.path.script r.covenantKey.xOnly s).isOk

/-- The outcome of signing, and what is left of the key. -/
def signErasing (r : SigningRequest) (secret : SecretKey) :
    Except BackendError Signature × SecretKey :=
  (r.signWith secret, .erased)

end SigningRequest

end Countersign
