import Countersign.Psbt.Packet
import Countersign.Staking.Spend

/-!
# Signing by packet

An approved request becomes a packet with one input, which spends the staking output through the
unbonding leaf with the default hash type. Of the packet that the wallet sends back only the covenant
key's own signature for that leaf is read.
-/

set_option autoImplicit false

namespace Countersign

namespace SigningRequest

def xOnly (r : SigningRequest) : XOnlyKey := r.covenantKey.xOnly

def ownOrigin : Bytes := [0, 0, 0, 0]

def defaultSighash : UInt32 := 0

/-- An input ready to be signed: final, and with nothing signed yet. -/
def unsignedInput (i : TxIn) : TxIn :=
  { previous := i.previous, scriptSig := [], sequence := 0xffffffff, witness := [] }

def packetInput (r : SigningRequest) : PsbtInput :=
  { witnessUtxo := some r.stakingOutput
    sighashType := some defaultSighash
    keyOrigins := [⟨r.covenantKey, ownOrigin⟩]
    leafSignatures := []
    leafScripts := [⟨r.path.controlBlock, r.path.script, Taproot.tapscript⟩]
    leafKeyOrigins := [⟨r.xOnly, [r.path.leafHash], ownOrigin⟩]
    others := [] }

def packet (r : SigningRequest) : Except BackendError Psbt :=
  match r.transaction.inputs with
  | [input] =>
    let unsigned := { r.transaction with inputs := [unsignedInput input] }
    .ok { Psbt.ofTransaction unsigned with inputs := [r.packetInput] }
  | inputs => .error (.psbtInputs inputs.length)

/-- The signature of the covenant key for the unbonding leaf that a packet's first input holds. -/
def ownSignature? (r : SigningRequest) (p : Psbt) : Option LeafSignature :=
  p.inputs.head?.bind fun i =>
    i.leafSignatures.find? fun s => s.key = r.xOnly ∧ s.leafHash = r.path.leafHash

def extract (r : SigningRequest) (p : Psbt) : Except BackendError Signature :=
  match r.ownSignature? p with
  | none => .error .missingSignature
  | some s => if s.sighash = .default then .ok s.signature else .error (.unexpectedSighash s.sighash)

end SigningRequest

end Countersign
