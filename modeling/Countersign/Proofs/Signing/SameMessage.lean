import Countersign.Proofs.Policy.HonestStake
import Countersign.Signing.Packet
import Countersign.Signing.SecretKey

/-!
# One message for all signers

A staker's signature is checked, and an exported key signs, against a digest that is made from the
transaction as it was requested. A wallet has nothing but the packet: `leafDigest?` is what it makes of
that, by the general rule of BIP341 for any number of inputs. The packet replaces what stands in the
signature slots and the sequence of the only input, so the two agree where there was nothing to replace.
-/

set_option autoImplicit false

namespace Countersign

open Outcome

namespace Sighash

/-- What is signed with the default hash type and without an annex for the input at this index, when
it spends its output through a leaf and the inputs together spend these outputs. -/
def message (t : Transaction) (spent : List TxOut) (index : UInt32) (leafHash : Hash256) : Bytes :=
  [0, SighashType.default.byte] ++ t.encodeVersion ++ encodeU32 t.lockTime ++
    Sha256.hash (t.inputs.flatMap fun i => i.previous.encode) ++
    Sha256.hash (spent.flatMap fun o => encodeU64 o.value) ++
    Sha256.hash (spent.flatMap fun o => CompactSize.sized o.script) ++
    Sha256.hash (t.inputs.flatMap fun i => encodeU32 i.sequence) ++
    Sha256.hash (t.outputs.flatMap TxOut.encode) ++ [spendType] ++ encodeU32 index ++
    leafHash.bytes ++ [0] ++ encodeU32 0xffffffff

theorem message_sole {t : Transaction} {input : TxIn} (inputs : t.inputs = [input]) (funding : TxOut)
    (leafHash : Hash256) : message t [funding] 0 leafHash = preimage t input funding leafHash := by
  simp [message, preimage, outputsPart, SighashType.byte, inputs]

end Sighash

/-- The digest that a packet asks to sign for an input: every input has to say what it spends, the
default hash type has to be meant, and one leaf has to be shown. -/
def Psbt.leafDigest? (p : Psbt) (index : UInt32) : Option Bytes := do
  guard (p.inputs.length = p.transaction.inputs.length)
  let input ← p.inputs[index.toNat]?
  guard (input.sighashType.getD 0 = 0)
  let spent ← p.inputs.mapM PsbtInput.witnessUtxo
  match input.leafScripts with
  | [s] =>
    return Sha256.tagged Sighash.tag
      (Sighash.message p.transaction spent index (TreeForm.leafHash s.version s.script))
  | _ => none

namespace SigningRequest

variable {r : SigningRequest} {p : Psbt}

theorem packet_eq_ok :
    r.packet = .ok p ↔ ∃ input, r.transaction.inputs = [input] ∧
      p = ⟨{ r.transaction with inputs := [unsignedInput input] }, [], [r.packetInput],
        r.transaction.outputs.map fun _ => []⟩ := by
  unfold packet
  rcases r.transaction.inputs with _ | ⟨input, _ | ⟨other, rest⟩⟩
  · simp
  · simp [Psbt.ofTransaction, eq_comm]
  · simp

/-- The packet is about the very transaction exactly when its input was unsigned and final. -/
theorem packet_transaction_eq_iff {input : TxIn} (inputs : r.transaction.inputs = [input])
    (packed : r.packet = .ok p) :
    p.transaction = r.transaction ↔
      input.scriptSig = [] ∧ input.sequence = 0xffffffff ∧ input.witness = [] := by
  obtain ⟨i, hi, rfl⟩ := packet_eq_ok.mp packed
  obtain rfl : i = input := by simpa [inputs] using hi.symm
  obtain ⟨stakingOutput, ⟨version, _, outputs, lockTime⟩, covenantKey, walletAddress, path⟩ := r
  obtain ⟨previous, scriptSig, sequence, witness⟩ := i
  obtain rfl : _ = [_] := inputs
  simp [unsignedInput, eq_comm]

theorem packet_leafDigest (packed : r.packet = .ok p) :
    p.leafDigest? 0 = some (Sha256.tagged Sighash.tag
      (Sighash.message p.transaction [r.stakingOutput] 0 r.path.leafHash)) := by
  obtain ⟨input, -, rfl⟩ := packet_eq_ok.mp packed
  rfl

theorem signWith_eq_ok {secret : SecretKey} {signature : Signature} :
    r.signWith secret = .ok signature ↔ ∃ pair, KeyPair.ofSecret? secret = some pair ∧
      pair.publicKey = r.covenantKey ∧
      r.transaction.signSpend r.stakingOutput pair r.path.leafHash = .ok signature := by
  unfold signWith
  cases KeyPair.ofSecret? secret with
  | none => simp
  | some pair =>
    by_cases h : pair.publicKey = r.covenantKey
    · simp [h, mapError_eq_ok]
    · simp [h]

/-- A packet made for a request, and the digest that everyone means by it. -/
structure SameMessage (r : SigningRequest) (p : Psbt) (digest : Bytes) : Prop where
  packed : r.packet = .ok p
  transaction : p.transaction = r.transaction
  input : ∃ i, p.inputs = [i] ∧ i.witnessUtxo = some r.stakingOutput ∧ i.sighashType = some 0 ∧
    i.leafScripts = [⟨r.path.controlBlock, r.path.script, Taproot.tapscript⟩]
  read : p.leafDigest? 0 = some digest
  signed : ∀ secret signature, r.signWith secret = .ok signature ↔
    ∃ pair, KeyPair.ofSecret? secret = some pair ∧ pair.publicKey = r.covenantKey ∧
      Schnorr.sign pair digest = signature
  verified : ∀ key signature,
    r.transaction.verifySpend r.stakingOutput r.path.script key signature = .ok () ↔
      Schnorr.verify key digest signature = true

/-- What passes the shape check is packed as it is, and the packet's digest is the one that the staker
has signed and that an exported key would sign. -/
theorem same_message {parts : TxIn × TxOut} (passes : r.transaction.awaitingSignature = .ok parts) :
    ∃ p digest, SameMessage r p digest := by
  obtain ⟨input, output⟩ := parts
  have shape := Transaction.awaitingSignature_eq_ok.mp passes
  obtain ⟨p, packed⟩ : ∃ p, r.packet = .ok p := ⟨_, packet_eq_ok.mpr ⟨input, shape.inputs, rfl⟩⟩
  have same : p.transaction = r.transaction :=
    (packet_transaction_eq_iff shape.inputs packed).mpr
      ⟨shape.scriptSig, shape.sequence, shape.witness⟩
  have read := packet_leafDigest packed
  rw [same, Sighash.message_sole shape.inputs] at read
  refine ⟨p, Sighash.digest r.transaction input r.stakingOutput r.path.leafHash, packed, same, ?_, read,
    ?_, ?_⟩
  · obtain ⟨_, -, rfl⟩ := packet_eq_ok.mp packed
    exact ⟨r.packetInput, rfl, rfl, rfl, rfl⟩
  · intro secret signature
    simp only [signWith_eq_ok, Transaction.signSpend, shape.spendDigest, bind_eq_ok, pure_eq_ok,
      Except.ok.injEq, exists_eq_left']
  · intro key signature
    exact shape.verifySpend_eq_ok

open Sample in
theorem sample_same_message :
    ∃ path, (staking 100000).unbondingPath = .ok path ∧
      ∃ p digest, SameMessage ⟨(staking 100000).txOut, (unbound 2 (.inr rfl)).transaction,
        ⟨first, false⟩, Network.signet.keyHashAddress ⟨first, false⟩, path⟩ p digest := by
  obtain ⟨path, revealed, -⟩ := LockedOutput.unbondingPath_eq_ok (staking_built 100000)
  exact ⟨path, revealed,
    same_message (Transaction.awaitingSignature_eq_ok.mpr ((unbound 2 (.inr rfl)).shape (by decide)))⟩

end SigningRequest

end Countersign
