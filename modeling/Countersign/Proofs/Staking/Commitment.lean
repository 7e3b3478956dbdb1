import Countersign.Proofs.Bitcoin.Hashing
import Countersign.Proofs.Bitcoin.Transactions
import Countersign.Proofs.Staking.Transfer

/-!
# What a signature commits to

The message is a row of fields of fixed widths, the variable ones entering by their hashes, so it can be
taken apart again. Provided that no two of the strings hashed for two digests have the same hash, equal
digests mean that the same outpoint is moved to the same outputs under the same conditions, out of the
same output and through the same leaf. What stands in the signature slots plays no part.
-/

set_option autoImplicit false

namespace Countersign

open Outcome

/-- A transaction with one input, the output that this input spends, and the leaf that is revealed. -/
structure LeafSpend where
  transaction : Transaction
  input : TxIn
  inputs : transaction.inputs = [input]
  funding : TxOut
  leafHash : Hash256

namespace LeafSpend

variable (s u : LeafSpend)

def digest : Except StakingError Bytes := s.transaction.spendDigest s.funding s.leafHash

def fields : List Bytes :=
  [[0, 0], s.transaction.encodeVersion, encodeU32 s.transaction.lockTime,
    Sha256.hash s.input.previous.encode, Sha256.hash (encodeU64 s.funding.value),
    Sha256.hash (CompactSize.sized s.funding.script), Sha256.hash (encodeU32 s.input.sequence),
    Sha256.hash (Sighash.outputsPart s.transaction), [Sighash.spendType], encodeU32 0, s.leafHash.bytes,
    [0], encodeU32 0xffffffff]

/-- All strings that are hashed for the digest, but for the tag, which is always the same. -/
def hashed : List Bytes :=
  [Sha256.taggedInput Sighash.tag s.fields.flatten, s.input.previous.encode, encodeU64 s.funding.value,
    CompactSize.sized s.funding.script, encodeU32 s.input.sequence, Sighash.outputsPart s.transaction]

/-- The two spends differ at most in what stands in the signature slots. -/
structure Same : Prop where
  version : s.transaction.version = u.transaction.version
  lockTime : s.transaction.lockTime = u.transaction.lockTime
  previous : s.input.previous = u.input.previous
  sequence : s.input.sequence = u.input.sequence
  outputs : s.transaction.outputs = u.transaction.outputs
  value : s.funding.value = u.funding.value
  script : s.funding.script = u.funding.script
  leafHash : s.leafHash = u.leafHash

/-- The lengths of the output scripts are numbers of 64 bits, as those of all strings in memory are. -/
def Measured : Prop := ∀ o ∈ s.transaction.outputs, Decoder.IsCount o.script.length

variable {s u}

theorem digest_eq : s.digest = .ok (Sha256.hash (Sha256.taggedInput Sighash.tag s.fields.flatten)) := by
  rw [digest, Transaction.spendDigest, s.inputs]
  simp [Sighash.digest, Sha256.tagged_eq, Sighash.preimage, fields]

theorem flatten_fields_inj (h : s.fields.flatten = u.fields.flatten) : s.fields = u.fields := by
  refine List.eq_iff_flatten_eq.mpr ⟨h, ?_⟩
  simp [fields, Transaction.encodeVersion, encodeU32, Bytes.ofNatLE_length, Sha256.hash_length,
    Hash256.length_eq]

theorem same_of_fields (measured : s.Measured) (measured' : u.Measured)
    (free : Sha256.CollisionFree (s.hashed ++ u.hashed)) (h : s.fields = u.fields) : s.Same u := by
  have unhash : ∀ {a b : Bytes}, a ∈ s.hashed → b ∈ u.hashed → Sha256.hash a = Sha256.hash b → a = b :=
    fun ha hb => free _ (List.mem_append_left _ ha) _ (List.mem_append_right _ hb)
  simp only [fields, List.cons.injEq, true_and, and_true] at h
  obtain ⟨version, lockTime, previous, value, script, sequence, outputs, leafHash⟩ := h
  constructor
  · simpa using congrArg UInt32.toInt32 (encodeU32_injective version)
  · exact encodeU32_injective lockTime
  · exact OutPoint.encode_injective (unhash (by simp [hashed]) (by simp [hashed]) previous)
  · exact encodeU32_injective (unhash (by simp [hashed]) (by simp [hashed]) sequence)
  · have row := unhash (by simp [hashed]) (by simp [hashed]) outputs
    exact Decoder.txOut_reads.flatMap_inj TxOut.one_le_encode measured measured' row
  · exact encodeU64_injective (unhash (by simp [hashed]) (by simp [hashed]) value)
  · exact CompactSize.sized_injective (unhash (by simp [hashed]) (by simp [hashed]) script)
  · exact Hash256.bytes_injective leafHash

theorem Same.fields_eq (h : s.Same u) : s.fields = u.fields := by
  simp only [fields, Transaction.encodeVersion, Sighash.outputsPart, h.version, h.lockTime, h.previous,
    h.sequence, h.outputs, h.value, h.script, h.leafHash]

theorem digest_eq_iff (measured : s.Measured) (measured' : u.Measured)
    (free : Sha256.CollisionFree (s.hashed ++ u.hashed)) : s.digest = u.digest ↔ s.Same u := by
  rw [digest_eq, digest_eq, Except.ok.injEq]
  constructor
  · intro h
    have hinput := free _ (by simp [hashed]) _ (by simp [hashed]) h
    have hfields := flatten_fields_inj (Sha256.taggedInput_inj.mp hinput).2
    exact same_of_fields measured measured' free hfields
  · intro h
    rw [h.fields_eq]

def filled (s : LeafSpend) (scriptSig : Script) (witness : List Bytes) : LeafSpend where
  transaction := { s.transaction with inputs := [{ s.input with scriptSig, witness }] }
  input := { s.input with scriptSig, witness }
  inputs := rfl
  funding := s.funding
  leafHash := s.leafHash

theorem filled_same (scriptSig : Script) (witness : List Bytes) : (s.filled scriptSig witness).Same s := by
  constructor <;> rfl

end LeafSpend

namespace Transaction

variable {t : Transaction}

theorem spendDigest_eq_error (other : t.inputs.length ≠ 1) (funding : TxOut) (leafHash : Hash256) :
    t.spendDigest funding leafHash = .error (.invalidInputCount t.inputs.length) := by
  unfold spendDigest
  split
  · rename_i input inputs
    simp [inputs] at other
  · rfl

end Transaction

namespace LeafSpend

/-- Two spends through leaves have the same digest exactly when they are the same but for the signature
slots, which no digest depends on. A transaction with any other number of inputs has no digest, and so is
neither signed nor verified, whoever's key was to be used for it. -/
theorem digest_commits (s u : LeafSpend) (t : Transaction) :
    (∃ d, s.digest = .ok d) ∧
    (s.Measured → u.Measured → Sha256.CollisionFree (s.hashed ++ u.hashed) →
      (s.digest = u.digest ↔ s.Same u)) ∧
    (∀ scriptSig witness, (s.filled scriptSig witness).digest = s.digest) ∧
    (t.inputs.length ≠ 1 → ∀ funding,
      (∀ leafHash, t.spendDigest funding leafHash = .error (.invalidInputCount t.inputs.length)) ∧
      (∀ pair leafHash,
        t.signSpend funding pair leafHash = .error (.invalidInputCount t.inputs.length)) ∧
      ∀ leafScript key signature,
        t.verifySpend funding leafScript key signature =
          .error (.invalidInputCount t.inputs.length)) := by
  refine ⟨⟨_, digest_eq⟩, digest_eq_iff, ?_, ?_⟩
  · intro scriptSig witness
    rw [digest_eq, digest_eq, (filled_same scriptSig witness).fields_eq]
  · intro other funding
    have none := Transaction.spendDigest_eq_error other funding
    refine ⟨none, ?_, ?_⟩
    · intro pair leafHash
      rw [Transaction.signSpend, none]
      rfl
    · intro leafScript key signature
      rw [Transaction.verifySpend, none]
      rfl

end LeafSpend

namespace Sample

def moved (outputs : List TxOut) : LeafSpend where
  transaction := ⟨2, [⟨⟨⟨List.replicate 32 3, rfl⟩, 1⟩, [], 0xffffffff, []⟩], outputs, 0⟩
  input := ⟨⟨⟨List.replicate 32 3, rfl⟩, 1⟩, [], 0xffffffff, []⟩
  inputs := rfl
  funding := ⟨100000, [0x51]⟩
  leafHash := Taproot.leafHash [0x51]

def apart : LeafSpend := moved [⟨9000, [0x51]⟩, ⟨81, []⟩]

def together : LeafSpend := moved [⟨9000, 0x51 :: TxOut.encode ⟨81, []⟩⟩]

end Sample

namespace LeafSpend

open Sample in
/-- Only the length of a script tells the two rows of outputs apart, and that is enough. -/
theorem sample_digest_commits :
    Sha256.CollisionFree (apart.hashed ++ together.hashed) ∧ apart.digest ≠ together.digest ∧
      (apart.filled [0x51] [[1, 2]]).digest = apart.digest ∧
      ∀ key signature, Transaction.verifySpend ⟨2, [], [], 0⟩ ⟨100000, [0x51]⟩ [0x51] key signature =
        .error (.invalidInputCount 0) := by
  have free : Sha256.CollisionFree (apart.hashed ++ together.hashed) := by decide +kernel
  have measured : apart.Measured ∧ together.Measured := by
    unfold Measured Decoder.IsCount
    decide +kernel
  obtain ⟨-, commits, slots, none⟩ := digest_commits apart together ⟨2, [], [], 0⟩
  refine ⟨free, ?_, slots _ _, (none (by decide) _).2.2 _⟩
  intro h
  have outputs := ((commits measured.1 measured.2 free).mp h).outputs
  revert outputs
  decide

end LeafSpend

end Countersign
