import Countersign.Proofs.Base64
import Countersign.Proofs.Json.Records
import Countersign.Proofs.Psbt.LeafSignatures
import Countersign.Proofs.Signing.SameMessage
import Countersign.Proofs.Signing.Wallets

/-!
# Signing through a processed packet

A wallet may put whatever it likes into the packet that it sends back, signatures of other keys, for other
leaves and in other inputs included. One entry is read of all that, the covenant key's own in the first
input for the leaf that is unbonded through, and what comes of the request depends on nothing else there.
-/

set_option autoImplicit false

namespace Countersign

open Outcome Node

namespace SigningRequest

structure Sends (r : SigningRequest) (sent : Psbt) : Prop where
  transfer : r.transaction.IsTransfer
  packed : r.packet = .ok sent

/-- The first input holds this signature by the covenant key for the request's leaf. -/
def Holds (r : SigningRequest) (p : Psbt) (s : LeafSignature) : Prop :=
  ∃ i, p.inputs.head? = some i ∧ s ∈ i.leafSignatures ∧ s.key = r.xOnly ∧ s.leafHash = r.path.leafHash

variable {r : SigningRequest} {p : Psbt}

theorem exists_sends (transfer : r.transaction.IsTransfer) : ∃ sent, r.Sends sent := by
  obtain ⟨input, output, inputs, -, -⟩ := id transfer
  exact ⟨_, transfer, packet_eq_ok.mpr ⟨input, inputs, rfl⟩⟩

theorem ownSignature?_eq_some {s : LeafSignature} (keyed : p.Keyed) :
    r.ownSignature? p = some s ↔ r.Holds p s := by
  rw [ownSignature?, Option.bind_eq_some_iff]
  refine exists_congr fun i => and_congr_right fun first => ?_
  exact (keyed i (List.mem_of_mem_head? first)).find?_eq_some

theorem extract_eq_ok {signature : Signature} (keyed : p.Keyed) :
    r.extract p = .ok signature ↔
      ∃ s, r.Holds p s ∧ s.sighash = .default ∧ s.signature = signature := by
  simp only [← ownSignature?_eq_some keyed]
  unfold extract
  cases r.ownSignature? p with
  | none => simp
  | some s =>
    by_cases meant : s.sighash = .default
    · simp [meant]
    · simp [meant]

theorem extract_eq_error {e : BackendError} (keyed : p.Keyed) :
    r.extract p = .error e ↔ ((∀ s, ¬ r.Holds p s) ∧ .missingSignature = e) ∨
      ∃ s, r.Holds p s ∧ s.sighash ≠ .default ∧ .unexpectedSighash s.sighash = e := by
  simp only [← ownSignature?_eq_some keyed]
  unfold extract
  cases r.ownSignature? p with
  | none => simp
  | some s =>
    by_cases meant : s.sighash = .default
    · simp [meant]
    · simp [meant]

theorem extract_eq_of_holds_iff {q : Psbt} (keyed : p.Keyed) (keyed' : q.Keyed)
    (agree : ∀ s, r.Holds p s ↔ r.Holds q s) : r.extract p = r.extract q := by
  have same : r.ownSignature? p = r.ownSignature? q := by
    apply Option.ext
    intro s
    rw [ownSignature?_eq_some keyed, ownSignature?_eq_some keyed', agree s]
  rw [extract, extract, same]

end SigningRequest

namespace Wallet

def exchangePacket (r : SigningRequest) : ExceptT BackendError (Dialogue Rpc) Signature := do
  let packet ← settle r.packet
  let signed ← (process packet).adapt .psbtSign
  settle (r.extract signed)

def processRequest (sent : Psbt) : RpcCall := ⟨"walletprocesspsbt", [Json.ofText sent.text, .bool true]⟩

def Returns (replies : Replies) (sent : Psbt) (text : String) : Prop :=
  ∃ v, replies (processRequest sent) = .ok v ∧ processedPacket? v = some text

/-- The wallet returns a packet that can be decoded. -/
def Processes (replies : Replies) (sent p : Psbt) : Prop :=
  ∃ text, Returns replies sent text ∧ Psbt.ofText? text = some p

/-- Why nothing comes of this packet. -/
inductive Fruitless (replies : Replies) (r : SigningRequest) (sent : Psbt) : BackendError → Prop where
  | unprocessed {e : NodeError} (unread : Unread replies (processRequest sent) processedPacket? e) :
    Fruitless replies r sent (.psbtSign e)
  | undecodable {text : String} (returned : Returns replies sent text)
    (undecodable : Psbt.ofText? text = none) : Fruitless replies r sent (.psbtSign .invalidPsbt)
  | missing {p : Psbt} (processed : Processes replies sent p) (missing : ∀ s, ¬ r.Holds p s) :
    Fruitless replies r sent .missingSignature
  | otherSighash {p : Psbt} {s : LeafSignature} (processed : Processes replies sent p)
    (holds : r.Holds p s) (other : s.sighash ≠ .default) :
    Fruitless replies r sent (.unexpectedSighash s.sighash)

inductive PacketRefused (replies : Replies) (r : SigningRequest) : BackendError → Prop where
  | noTransfer {e : StakingError} (refused : r.transaction.simpleTransfer = .error e) :
    PacketRefused replies r (.invalidTransaction e)
  | fruitless {sent : Psbt} {e : BackendError} (sends : r.Sends sent)
    (fruitless : Fruitless replies r sent e) : PacketRefused replies r e

section Processing

variable {replies : Replies} {r : SigningRequest} {sent p : Psbt}

theorem Processes.keyed (h : Processes replies sent p) : p.Keyed := by
  obtain ⟨text, -, decoded⟩ := h
  exact Psbt.ofText?_keyed decoded

theorem process_eq_ok : answer replies (process sent) = .ok p ↔ Processes replies sent p := by
  rw [process, answer_bind, bind_eq_ok]
  refine exists_congr fun text => and_congr answer_call_eq_ok ?_
  cases Psbt.ofText? text with
  | none => exact iff_of_false nofun nofun
  | some q =>
    show Except.ok q = .ok p ↔ _
    rw [Except.ok.injEq, Option.some.injEq]

theorem process_eq_error {e : NodeError} :
    answer replies (process sent) = .error e ↔ Unread replies (processRequest sent) processedPacket? e ∨
      ∃ text, Returns replies sent text ∧ Psbt.ofText? text = none ∧ .invalidPsbt = e := by
  rw [process, answer_bind, bind_eq_error]
  refine or_congr answer_call_eq_error (exists_congr fun text => and_congr answer_call_eq_ok ?_)
  cases Psbt.ofText? text with
  | none =>
    show Except.error NodeError.invalidPsbt = .error e ↔ _
    rw [Except.error.injEq, and_iff_right rfl]
  | some q => exact iff_of_false nofun nofun

theorem questions_process : Dialogue.questions (I := Rpc) replies (process sent).run = [processRequest sent] := by
  refine (questions_bind_silent ?_).trans rfl
  intro text
  cases Psbt.ofText? text with
  | none => rfl
  | some q => rfl

theorem signByPacket_eq : signByPacket r = (do checkTransfer r; exchangePacket r) := rfl

theorem outcome_exchangePacket (packed : r.packet = .ok sent) :
    outcome replies (exchangePacket r) =
      (answer replies (process sent)).mapError .psbtSign >>= (fun signed => r.extract signed) := by
  rw [exchangePacket, packed]
  exact outcome_judge replies _ _ _

theorem asked_exchangePacket (packed : r.packet = .ok sent) :
    asked replies (exchangePacket r) = [processRequest sent] := by
  rw [exchangePacket, packed]
  exact (asked_judge replies _ _ _).trans questions_process

theorem exchangePacket_eq_ok {signature : Signature} (packed : r.packet = .ok sent) :
    outcome replies (exchangePacket r) = .ok signature ↔ ∃ p s, Processes replies sent p ∧
      r.Holds p s ∧ s.sighash = .default ∧ s.signature = signature := by
  simp only [outcome_exchangePacket packed, bind_eq_ok, mapError_eq_ok, process_eq_ok]
  refine exists_congr fun p => ?_
  rw [exists_and_left]
  exact and_congr_right fun processed => SigningRequest.extract_eq_ok processed.keyed

theorem exchangePacket_eq_error {e : BackendError} (packed : r.packet = .ok sent) :
    outcome replies (exchangePacket r) = .error e ↔ Fruitless replies r sent e := by
  simp only [outcome_exchangePacket packed, bind_eq_error, mapError_eq_error, mapError_eq_ok,
    process_eq_ok, process_eq_error]
  constructor
  · intro h
    rcases h with ⟨d, unread | ⟨text, returned, undecodable, rfl⟩, rfl⟩ | ⟨p, processed, extracted⟩
    · exact .unprocessed unread
    · exact .undecodable returned undecodable
    · rcases (SigningRequest.extract_eq_error processed.keyed).mp extracted with
        ⟨missing, rfl⟩ | ⟨s, holds, other, rfl⟩
      · exact .missing processed missing
      · exact .otherSighash processed holds other
  · intro h
    cases h with
    | unprocessed unread => exact .inl ⟨_, .inl unread, rfl⟩
    | undecodable returned undecodable => exact .inl ⟨_, .inr ⟨_, returned, undecodable, rfl⟩, rfl⟩
    | missing processed missing =>
      exact .inr ⟨_, processed, (SigningRequest.extract_eq_error processed.keyed).mpr (.inl ⟨missing, rfl⟩)⟩
    | otherSighash processed holds other =>
      exact .inr ⟨_, processed,
        (SigningRequest.extract_eq_error processed.keyed).mpr (.inr ⟨_, holds, other, rfl⟩)⟩

theorem signByPacket_eq_ok {signature : Signature} :
    outcome replies (signByPacket r) = .ok signature ↔ ∃ sent p s, r.Sends sent ∧
      Processes replies sent p ∧ r.Holds p s ∧ s.sighash = .default ∧ s.signature = signature := by
  rw [signByPacket_eq, checkTransfer_eq_ok]
  constructor
  · intro h
    obtain ⟨sent, sends⟩ := SigningRequest.exists_sends h.1
    obtain ⟨p, s, returned⟩ := (exchangePacket_eq_ok sends.packed).mp h.2
    exact ⟨sent, p, s, sends, returned⟩
  · intro h
    obtain ⟨sent, p, s, sends, returned⟩ := h
    exact ⟨sends.transfer, (exchangePacket_eq_ok sends.packed).mpr ⟨p, s, returned⟩⟩

theorem signByPacket_eq_error {e : BackendError} :
    outcome replies (signByPacket r) = .error e ↔ PacketRefused replies r e := by
  rw [signByPacket_eq, checkTransfer_eq_error]
  constructor
  · intro h
    rcases h with ⟨d, refused, rfl⟩ | ⟨transfer, failed⟩
    · exact .noTransfer refused
    · obtain ⟨sent, sends⟩ := SigningRequest.exists_sends transfer
      exact .fruitless sends ((exchangePacket_eq_error sends.packed).mp failed)
  · intro h
    cases h with
    | noTransfer refused => exact .inl ⟨_, refused, rfl⟩
    | fruitless sends fruitless =>
      exact .inr ⟨sends.transfer, (exchangePacket_eq_error sends.packed).mpr fruitless⟩

theorem signByPacket_frame {other : Replies} {q : Psbt} (sends : r.Sends sent)
    (processed : Processes replies sent p) (processed' : Processes other sent q)
    (agree : ∀ s, r.Holds p s ↔ r.Holds q s) :
    outcome replies (signByPacket r) = outcome other (signByPacket r) := by
  obtain ⟨parts, passed⟩ := Transaction.isTransfer_iff.mp sends.transfer
  rw [signByPacket_eq, checkTransfer_of_ok passed, outcome_exchangePacket sends.packed,
    outcome_exchangePacket sends.packed, process_eq_ok.mpr processed, process_eq_ok.mpr processed']
  exact SigningRequest.extract_eq_of_holds_iff processed.keyed processed'.keyed agree

theorem asked_signByPacket :
    (∃ sent, r.Sends sent ∧ asked replies (signByPacket r) = [processRequest sent]) ∨
      (¬ r.transaction.IsTransfer ∧ asked replies (signByPacket r) = []) := by
  refine asked_checkTransfer.imp ?_ id
  intro h
  obtain ⟨sent, sends⟩ := SigningRequest.exists_sends h.1
  exact ⟨sent, sends, h.2.trans (asked_exchangePacket sends.packed)⟩

/-- The covenant key's own entry in the first input for the request's leaf is returned if it has the default
hash type, and what else there is in the packet changes nothing. Every other outcome is a refusal, of which
that the packet could not be made is none. The wallet is called once and with that packet, or not at all if
there is no transfer to sign. -/
theorem own_entry_returned (r : SigningRequest) (replies : Replies) :
    (∀ signature, outcome replies (signByPacket r) = .ok signature ↔ ∃ sent p s, r.Sends sent ∧
      Processes replies sent p ∧ r.Holds p s ∧ s.sighash = .default ∧ s.signature = signature) ∧
    (∀ e, outcome replies (signByPacket r) = .error e ↔ PacketRefused replies r e) ∧
    (∀ count, outcome replies (signByPacket r) ≠ .error (.psbtInputs count)) ∧
    (∀ other sent p q, r.Sends sent → Processes replies sent p → Processes other sent q →
      (∀ s, r.Holds p s ↔ r.Holds q s) →
      outcome replies (signByPacket r) = outcome other (signByPacket r)) ∧
    ((∃ sent, r.Sends sent ∧ asked replies (signByPacket r) = [processRequest sent]) ∨
      (¬ r.transaction.IsTransfer ∧ asked replies (signByPacket r) = [])) := by
  refine ⟨fun signature => signByPacket_eq_ok, fun e => signByPacket_eq_error, ?_, ?_, asked_signByPacket⟩
  · intro count failed
    cases signByPacket_eq_error.mp failed with
    | fruitless sends fruitless => cases fruitless
  · intro other sent p q sends processed processed' agree
    exact signByPacket_frame sends processed processed' agree

end Processing

end Wallet

namespace Sample

def ownEntry : LeafSignature :=
  ⟨staker, Taproot.leafHash (staking 100000).leaves.unbonding, approval, .default⟩

/-- The finality provider has signed too, and means another hash type. -/
def strayEntry : LeafSignature :=
  ⟨provider, Taproot.leafHash (staking 100000).leaves.unbonding, ⟨List.replicate 64 2, rfl⟩, .all⟩

/-- A wallet need not write the signatures in order. -/
def signedBytes (signatures : List LeafSignature) : Bytes :=
  Psbt.magic ++ Entry.encodeMap [⟨0x00, [], (unbound 2 version_two).transaction.encodeBare⟩] ++
    Entry.encodeMap (signatures.map LeafSignature.entry) ++ Entry.encodeMap []

def processor (signatures : List LeafSignature) : Replies := fun _ =>
  .ok (Json.ofMembers [("psbt", Json.ofText (Base64.encode (signedBytes signatures))),
    ("complete", .bool true)])

def signatures? (b : Bytes) : Option (List (List LeafSignature)) :=
  (Psbt.decode? b).map fun p => p.inputs.map PsbtInput.leafSignatures

theorem signatures?_own : signatures? (signedBytes [ownEntry]) = some [[ownEntry]] := by decide +kernel

theorem signatures?_both :
    signatures? (signedBytes [ownEntry, strayEntry]) = some [[strayEntry, ownEntry]] := by decide +kernel

theorem processor_processes {signatures read : List LeafSignature} (sent : Psbt)
    (h : signatures? (signedBytes signatures) = some [read]) :
    ∃ p, Wallet.Processes (processor signatures) sent p ∧
      p.inputs.map PsbtInput.leafSignatures = [read] := by
  obtain ⟨p, decoded, hp⟩ := Option.map_eq_some_iff.mp h
  refine ⟨p, ⟨Base64.encode (signedBytes signatures), ⟨_, rfl, ?_⟩, ?_⟩, hp⟩
  · rw [processedPacket?, Json.record?_ofMembers (by simp) (by simp)]
    simp only [Json.Record.required_recordOf, List.lookup_cons, String.reduceBEq, Json.text?_ofText,
      Option.bind_eq_bind, Option.bind_some]
    rfl
  -- by the law for all texts, so that the kernel has only bytes to look through
  · rw [Psbt.ofText?, Base64.decode?_encode]
    exact decoded

theorem ownRequest_holds_iff {path : RevealedLeaf} {p : Psbt} {read : List LeafSignature}
    {s : LeafSignature} (leaf : path.script = (staking 100000).leaves.unbonding)
    (h : p.inputs.map PsbtInput.leafSignatures = [read]) :
    (ownRequest path).Holds p s ↔ s ∈ read ∧ s.key = staker ∧ s.leafHash = ownEntry.leafHash := by
  obtain ⟨i, inputs, rfl⟩ := List.map_eq_singleton_iff.mp h
  have hleaf : (ownRequest path).path.leafHash = ownEntry.leafHash := congrArg Taproot.leafHash leaf
  rw [SigningRequest.Holds, inputs, hleaf]
  simp [SigningRequest.xOnly, ownRequest, pair]

end Sample

namespace Wallet

open Sample in
theorem sample_own_entry_returned :
    ∃ path, (staking 100000).unbondingPath = .ok path ∧
      outcome (processor [ownEntry]) (signByPacket (ownRequest path)) = .ok approval ∧
      outcome (processor [ownEntry, strayEntry]) (signByPacket (ownRequest path)) = .ok approval := by
  obtain ⟨path, revealed, leaf⟩ := LockedOutput.unbondingPath_eq_ok (staking_built 100000)
  obtain ⟨sent, sends⟩ := SigningRequest.exists_sends (ownRequest_transfer path)
  obtain ⟨p, processed, own⟩ := processor_processes sent signatures?_own
  obtain ⟨q, processed', both⟩ := processor_processes sent signatures?_both
  obtain ⟨signs, -, -, frame, -⟩ := own_entry_returned (ownRequest path) (processor [ownEntry])
  have holds : (ownRequest path).Holds p ownEntry :=
    (ownRequest_holds_iff leaf own).mpr ⟨List.mem_singleton.mpr rfl, rfl, rfl⟩
  have agree : ∀ s, (ownRequest path).Holds p s ↔ (ownRequest path).Holds q s := by
    intro s
    rw [ownRequest_holds_iff leaf own, ownRequest_holds_iff leaf both]
    constructor
    · intro h
      exact ⟨List.mem_cons_of_mem _ h.1, h.2⟩
    · intro h
      cases List.mem_cons.mp h.1 with
      | inl stray =>
        rw [stray] at h
        exact absurd h.2.1 (by decide)
      | inr own => exact ⟨own, h.2⟩
  have returned := (signs approval).mpr ⟨sent, p, ownEntry, sends, processed, holds, rfl, rfl⟩
  refine ⟨path, revealed, returned, ?_⟩
  rw [← frame _ sent p q sends processed processed' agree]
  exact returned

end Wallet

end Countersign
