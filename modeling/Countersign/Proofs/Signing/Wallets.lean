import Countersign.Proofs.Node.Calls
import Countersign.Proofs.Policy.HonestStake
import Countersign.Signing.Wallet

/-!
# What is asked of a wallet

Both ways of signing check that a transfer is to be signed, put one call to the wallet, and make of its
reply what they can. So with the replies fixed signing comes to one outcome, and what was asked is that one
call, or nothing at all when there was no transfer.
-/

set_option autoImplicit false

namespace Countersign

open Outcome Node

namespace Transaction

/-- One input moves to one output, which carries value. -/
def IsTransfer (t : Transaction) : Prop :=
  ∃ input output, t.inputs = [input] ∧ t.outputs = [output] ∧ output.value ≠ 0

variable {t : Transaction}

theorem isTransfer_iff : t.IsTransfer ↔ ∃ parts, t.simpleTransfer = .ok parts := by
  simp only [Prod.exists, simpleTransfer_eq_ok]
  rfl

theorem simpleTransfer_cases (t : Transaction) :
    (∃ e, t.simpleTransfer = .error e ∧ ¬ t.IsTransfer) ∨
      ∃ parts, t.simpleTransfer = .ok parts ∧ t.IsTransfer := by
  rw [isTransfer_iff]
  cases t.simpleTransfer with
  | error e => exact .inl ⟨e, rfl, nofun⟩
  | ok parts => exact .inr ⟨parts, rfl, parts, rfl⟩

theorem IsTransfer.exists_digest (h : t.IsTransfer) (funding : TxOut) (leafHash : Hash256) :
    ∃ digest, t.spendDigest funding leafHash = .ok digest := by
  obtain ⟨input, output, inputs, -, -⟩ := h
  rw [spendDigest, inputs]
  exact ⟨_, rfl⟩

theorem verifySpend_of_digest {funding : TxOut} {leaf : Script} {key : XOnlyKey} {signature : Signature}
    {digest : Bytes} (h : t.spendDigest funding (Taproot.leafHash leaf) = .ok digest)
    (verified : Schnorr.verify key digest signature = true) :
    t.verifySpend funding leaf key signature = .ok () := by
  simp only [verifySpend, bind_eq_ok, h, verified, if_true, Except.ok.injEq, exists_eq_left']
  rfl

end Transaction

namespace Dialogue

variable {I : Interface} {ε δ α β : Type} (answers : (q : I.Question) → I.Answer q)
  (calls : ExceptT ε (Dialogue I) α) (fault : ε → δ) (judge : α → Except δ β)

theorem run_adapt : (calls.adapt fault).run = calls.run.bind fun x => .done (x.mapError fault) := rfl

theorem outcome_judge :
    (calls.adapt fault >>= fun a => ExceptT.mk (.done (judge a))).run.outcome answers =
      (calls.run.outcome answers).mapError fault >>= judge := by
  refine (outcome_bind answers (calls.adapt fault).run _).trans ?_
  rw [run_adapt, outcome_bind]
  cases calls.run.outcome answers with
  | error e => rfl
  | ok a => rfl

theorem questions_judge :
    (calls.adapt fault >>= fun a => ExceptT.mk (.done (judge a))).run.questions answers =
      calls.run.questions answers := by
  refine (questions_bind answers (calls.adapt fault).run _).trans ?_
  rw [run_adapt, questions_bind, outcome_bind]
  cases calls.run.outcome answers with
  | error e => exact (List.append_nil _).trans (List.append_nil _)
  | ok a => exact (List.append_nil _).trans (List.append_nil _)

end Dialogue

namespace Wallet

section Steps

variable {α : Type} (replies : Replies)

def outcome (signing : ExceptT BackendError (Dialogue Rpc) α) : Except BackendError α :=
  Dialogue.outcome (I := Rpc) replies signing.run

def asked (signing : ExceptT BackendError (Dialogue Rpc) α) : List RpcCall :=
  Dialogue.questions (I := Rpc) replies signing.run

variable (calls : ExceptT NodeError (Dialogue Rpc) α) (fault : NodeError → BackendError)
  (judge : α → Except BackendError Signature)

theorem outcome_judge :
    outcome replies (calls.adapt fault >>= fun a => settle (judge a)) =
      (answer replies calls).mapError fault >>= judge :=
  Dialogue.outcome_judge (I := Rpc) replies calls fault judge

theorem asked_judge :
    asked replies (calls.adapt fault >>= fun a => settle (judge a)) =
      Dialogue.questions (I := Rpc) replies calls.run :=
  Dialogue.questions_judge (I := Rpc) replies calls fault judge

end Steps

section Transfers

variable {replies : Replies} {r : SigningRequest} {next : ExceptT BackendError (Dialogue Rpc) Signature}

/-- What is no transfer is refused before the wallet hears of it. -/
theorem checkTransfer_of_error {e : StakingError} (h : r.transaction.simpleTransfer = .error e) :
    outcome replies (do checkTransfer r; next) = .error (.invalidTransaction e) ∧
      asked replies (do checkTransfer r; next) = [] := by
  rw [checkTransfer, h]
  exact ⟨rfl, rfl⟩

theorem checkTransfer_of_ok {parts : TxIn × TxOut} (h : r.transaction.simpleTransfer = .ok parts) :
    (do checkTransfer r; next) = next := by
  rw [checkTransfer, h]
  rfl

theorem checkTransfer_eq_ok {s : Signature} :
    outcome replies (do checkTransfer r; next) = .ok s ↔
      r.transaction.IsTransfer ∧ outcome replies next = .ok s := by
  rcases r.transaction.simpleTransfer_cases with ⟨e, refused, none⟩ | ⟨parts, passed, transfer⟩
  · rw [(checkTransfer_of_error refused).1]
    simp [none]
  · rw [checkTransfer_of_ok passed]
    exact (and_iff_right transfer).symm

theorem checkTransfer_eq_error {e : BackendError} :
    outcome replies (do checkTransfer r; next) = .error e ↔
      (∃ d, r.transaction.simpleTransfer = .error d ∧ .invalidTransaction d = e) ∨
        (r.transaction.IsTransfer ∧ outcome replies next = .error e) := by
  rcases r.transaction.simpleTransfer_cases with ⟨d, refused, none⟩ | ⟨parts, passed, transfer⟩
  · rw [(checkTransfer_of_error refused).1]
    simp [refused, none]
  · rw [checkTransfer_of_ok passed]
    simp [passed, transfer]

theorem asked_checkTransfer :
    (r.transaction.IsTransfer ∧ asked replies (do checkTransfer r; next) = asked replies next) ∨
      (¬ r.transaction.IsTransfer ∧ asked replies (do checkTransfer r; next) = []) := by
  rcases r.transaction.simpleTransfer_cases with ⟨d, refused, none⟩ | ⟨parts, passed, transfer⟩
  · exact .inr ⟨none, (checkTransfer_of_error refused).2⟩
  · rw [checkTransfer_of_ok passed]
    exact .inl ⟨transfer, rfl⟩

end Transfers

end Wallet

namespace Sample

def ownRequest (path : RevealedLeaf) : SigningRequest :=
  ⟨(staking 100000).txOut, (unbound 2 version_two).transaction, pair.publicKey,
    Network.signet.keyHashAddress pair.publicKey, path⟩

theorem ownRequest_transfer (path : RevealedLeaf) : (ownRequest path).transaction.IsTransfer :=
  have shape := (unbound 2 version_two).shape (by decide)
  ⟨_, _, shape.inputs, shape.outputs, shape.value⟩

end Sample

end Countersign
