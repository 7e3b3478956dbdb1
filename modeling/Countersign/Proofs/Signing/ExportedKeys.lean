import Countersign.Proofs.Signing.SameMessage
import Countersign.Proofs.Signing.Wallets

/-!
# Signing with an exported key

The key that a wallet exports signs if its public key is the covenant key, the parity of y included, and
what it signs is verified under that key as long as the nonce that comes out is not zero. Everything else is
refused for one of three reasons, and that signing itself should fail is none of them.
-/

set_option autoImplicit false

namespace Countersign

open Outcome Node

section Pairs

variable {secret : SecretKey}

theorem KeyPair.eq_of_secret_eq {first second : KeyPair} (same : first.secret = second.secret) :
    first = second := by
  obtain ⟨secret, key, derives⟩ := first
  obtain ⟨_, key', derives'⟩ := second
  obtain rfl : secret = _ := same
  obtain rfl := Option.some.inj (derives.symm.trans derives')
  rfl

theorem KeyPair.ofSecret?_eq_some {pair : KeyPair} : ofSecret? secret = some pair ↔ pair.secret = secret := by
  constructor
  · intro h
    unfold ofSecret? at h
    split at h
    · cases h
      rfl
    · cases h
  · intro h
    unfold ofSecret?
    split
    · exact congrArg some (eq_of_secret_eq h.symm)
    · rename_i underived
      rw [← h, pair.derives] at underived
      cases underived

theorem SecretKey.publicKey?_eq_some {key : PublicKey} :
    secret.publicKey? = some key ↔ ∃ pair : KeyPair, pair.secret = secret ∧ pair.publicKey = key := by
  constructor
  · intro derives
    exact ⟨⟨secret, key, derives⟩, rfl, rfl⟩
  · intro ⟨pair, hsecret, hkey⟩
    rw [← hsecret, ← hkey]
    exact pair.derives

end Pairs

namespace SigningRequest

def digest (r : SigningRequest) : Except StakingError Bytes :=
  r.transaction.spendDigest r.stakingOutput r.path.leafHash

/-- The signature is by the key for the request's transaction, staking output and leaf. -/
def Verified (r : SigningRequest) (key : XOnlyKey) (s : Signature) : Prop :=
  r.transaction.verifySpend r.stakingOutput r.path.script key s = .ok ()

variable {r : SigningRequest} {secret : SecretKey} {d : Bytes}

theorem signWith_eq_ok_iff (message : r.digest = .ok d) {s : Signature} :
    r.signWith secret = .ok s ↔ ∃ pair : KeyPair, pair.secret = secret ∧ pair.publicKey = r.covenantKey ∧
      s = Schnorr.signWith (List.replicate 32 0) pair d := by
  rw [signWith_eq_ok]
  refine exists_congr fun pair => and_congr KeyPair.ofSecret?_eq_some (and_congr_right fun _ => ?_)
  rw [Transaction.signSpend_eq, Transaction.signSpendWith, bind_eq_ok]
  constructor
  · intro h
    obtain ⟨d', hd, h⟩ := h
    obtain rfl := Except.ok.inj (message.symm.trans hd)
    exact (pure_eq_ok.mp h).symm
  · intro h
    exact ⟨d, message, pure_eq_ok.mpr h.symm⟩

theorem signWith_eq_error_iff (message : r.digest = .ok d) {e : BackendError} :
    r.signWith secret = .error e ↔
      secret.publicKey? ≠ some r.covenantKey ∧ .keyMismatch r.covenantKey = e := by
  by_cases own : secret.publicKey? = some r.covenantKey
  · obtain ⟨pair, hsecret, hkey⟩ := SecretKey.publicKey?_eq_some.mp own
    have signs := (signWith_eq_ok_iff message).mpr ⟨pair, hsecret, hkey, rfl⟩
    rw [signs]
    simp [own]
  · have refused : r.signWith secret = .error (.keyMismatch r.covenantKey) := by
      unfold signWith
      cases derived : KeyPair.ofSecret? secret with
      | none => rfl
      | some pair =>
        have foreign : pair.publicKey ≠ r.covenantKey := by
          intro hkey
          exact own (SecretKey.publicKey?_eq_some.mpr ⟨pair, KeyPair.ofSecret?_eq_some.mp derived, hkey⟩)
        exact if_pos foreign
    rw [refused, Except.error.injEq]
    exact (and_iff_right own).symm

/-- What the covenant key's own pair signs is verified, whatever auxiliary data goes into the nonce. -/
theorem verified_signWith {pair : KeyPair} {aux : Bytes} (own : pair.publicKey = r.covenantKey)
    (message : r.digest = .ok d) (nonce : Schnorr.nonce aux pair d ≠ 0) :
    r.Verified r.xOnly (Schnorr.signWith aux pair d) := by
  apply Transaction.verifySpend_of_digest message
  rw [xOnly, ← own]
  exact Schnorr.verify_signWith nonce

end SigningRequest

namespace Wallet

def exportRequest (address : String) : RpcCall := ⟨"dumpprivkey", [Json.ofText address]⟩

/-- The wallet replies with this secret key, in whatever form it is used. -/
def Exports (replies : Replies) (address : String) (secret : SecretKey) : Prop :=
  ∃ v key, replies (exportRequest address) = .ok v ∧ exportedKey? v = some key ∧ key.secret = secret

/-- Why nothing is signed. -/
inductive KeyRefused (replies : Replies) (r : SigningRequest) : BackendError → Prop where
  | noTransfer {e : StakingError} (refused : r.transaction.simpleTransfer = .error e) :
    KeyRefused replies r (.invalidTransaction e)
  | noKey {e : NodeError} (transfer : r.transaction.IsTransfer)
    (unread : Unread replies (exportRequest r.walletAddress) exportedKey? e) :
    KeyRefused replies r (.keyRetrieval e)
  | foreignKey {secret : SecretKey} (transfer : r.transaction.IsTransfer)
    (exported : Exports replies r.walletAddress secret)
    (foreign : secret.publicKey? ≠ some r.covenantKey) :
    KeyRefused replies r (.keyMismatch r.covenantKey)

section Signing

variable {replies : Replies} {r : SigningRequest}

theorem exportKey_eq_ok {key : ExportedKey} {address : String} :
    answer replies (exportKey address) = .ok key ↔
      ∃ v, replies (exportRequest address) = .ok v ∧ exportedKey? v = some key := answer_call_eq_ok

theorem exportKey_eq_error {e : NodeError} {address : String} :
    answer replies (exportKey address) = .error e ↔ Unread replies (exportRequest address) exportedKey? e :=
  answer_call_eq_error

theorem signByKey_eq_ok {s : Signature} :
    outcome replies (signByKey r) = .ok s ↔ r.transaction.IsTransfer ∧ ∃ pair digest,
      Exports replies r.walletAddress pair.secret ∧ pair.publicKey = r.covenantKey ∧
        r.digest = .ok digest ∧ s = Schnorr.signWith (List.replicate 32 0) pair digest := by
  refine checkTransfer_eq_ok.trans (and_congr_right fun transfer => ?_)
  obtain ⟨digest, message⟩ := transfer.exists_digest r.stakingOutput r.path.leafHash
  simp only [outcome_judge, SigningRequest.signErasing, bind_eq_ok, mapError_eq_ok, exportKey_eq_ok,
    SigningRequest.signWith_eq_ok_iff message]
  constructor
  · intro ⟨key, ⟨v, sent, read⟩, pair, hsecret, own, hs⟩
    exact ⟨pair, digest, ⟨v, key, sent, read, hsecret.symm⟩, own, message, hs⟩
  · intro ⟨pair, d, ⟨v, key, sent, read, hsecret⟩, own, hd, hs⟩
    obtain rfl := Except.ok.inj (message.symm.trans hd)
    exact ⟨key, ⟨v, sent, read⟩, pair, hsecret.symm, own, hs⟩

theorem signByKey_eq_error {e : BackendError} :
    outcome replies (signByKey r) = .error e ↔ KeyRefused replies r e := by
  refine checkTransfer_eq_error.trans ?_
  simp only [outcome_judge, SigningRequest.signErasing, bind_eq_error, mapError_eq_error, mapError_eq_ok,
    exportKey_eq_ok, exportKey_eq_error]
  constructor
  · intro h
    rcases h with ⟨d, refused, rfl⟩ | ⟨transfer, ⟨d, unread, rfl⟩ | ⟨key, ⟨v, sent, read⟩, failed⟩⟩
    · exact .noTransfer refused
    · exact .noKey transfer unread
    · obtain ⟨digest, message⟩ := transfer.exists_digest r.stakingOutput r.path.leafHash
      obtain ⟨foreign, rfl⟩ := (SigningRequest.signWith_eq_error_iff message).mp failed
      exact .foreignKey transfer ⟨v, key, sent, read, rfl⟩ foreign
  · intro h
    cases h with
    | noTransfer refused => exact .inl ⟨_, refused, rfl⟩
    | noKey transfer unread => exact .inr ⟨transfer, .inl ⟨_, unread, rfl⟩⟩
    | foreignKey transfer exported foreign =>
      obtain ⟨digest, message⟩ := transfer.exists_digest r.stakingOutput r.path.leafHash
      obtain ⟨v, key, sent, read, rfl⟩ := exported
      exact .inr ⟨transfer, .inr ⟨key, ⟨v, sent, read⟩,
        (SigningRequest.signWith_eq_error_iff message).mpr ⟨foreign, rfl⟩⟩⟩

theorem asked_signByKey :
    (r.transaction.IsTransfer ∧ asked replies (signByKey r) = [exportRequest r.walletAddress]) ∨
      (¬ r.transaction.IsTransfer ∧ asked replies (signByKey r) = []) := by
  refine asked_checkTransfer.imp ?_ id
  intro h
  exact ⟨h.1, h.2.trans (asked_judge replies _ _ _)⟩

/-- An exported key signs a transfer exactly if it is the covenant key's own, and what it signs is verified
under the covenant key, whatever auxiliary data goes into a nonce that is not zero. The other outcomes are
three, and before the wallet is called there is only the first of them. -/
theorem own_key_signs (r : SigningRequest) (replies : Replies) :
    ((∃ s, outcome replies (signByKey r) = .ok s) ↔ r.transaction.IsTransfer ∧ ∃ secret,
      Exports replies r.walletAddress secret ∧ secret.publicKey? = some r.covenantKey) ∧
    (∀ s, outcome replies (signByKey r) = .ok s → ∃ pair digest,
      Exports replies r.walletAddress pair.secret ∧ pair.publicKey = r.covenantKey ∧
      r.digest = .ok digest ∧ s = Schnorr.signWith (List.replicate 32 0) pair digest ∧
      ∀ aux, Schnorr.nonce aux pair digest ≠ 0 →
        r.Verified r.xOnly (Schnorr.signWith aux pair digest)) ∧
    (∀ e, outcome replies (signByKey r) = .error e ↔ KeyRefused replies r e) ∧
    (∀ e, outcome replies (signByKey r) ≠ .error (.signing e)) ∧
    ((r.transaction.IsTransfer ∧ asked replies (signByKey r) = [exportRequest r.walletAddress]) ∨
      (¬ r.transaction.IsTransfer ∧ asked replies (signByKey r) = [])) := by
  refine ⟨?_, ?_, fun e => signByKey_eq_error, ?_, asked_signByKey⟩
  · simp only [signByKey_eq_ok, SecretKey.publicKey?_eq_some]
    constructor
    · intro ⟨s, transfer, pair, digest, exported, own, _⟩
      exact ⟨transfer, pair.secret, exported, pair, rfl, own⟩
    · intro ⟨transfer, secret, exported, pair, hsecret, own⟩
      obtain ⟨digest, message⟩ := transfer.exists_digest r.stakingOutput r.path.leafHash
      exact ⟨_, transfer, pair, digest, hsecret ▸ exported, own, message, rfl⟩
  · intro s signed
    obtain ⟨-, pair, digest, exported, own, message, made⟩ := signByKey_eq_ok.mp signed
    exact ⟨pair, digest, exported, own, message, made,
      fun aux nonce => SigningRequest.verified_signWith own message nonce⟩
  · intro e failed
    cases signByKey_eq_error.mp failed

end Signing

end Wallet

namespace Sample

def exporter : Replies := fun _ => .ok (Json.ofText "cMahea7zqjxrtgAbB7LSGbcQUr1uX1ojuat9jZodMN87L7FgDCKE")

theorem exporter_exports_iff {address : String} {secret : SecretKey} :
    Wallet.Exports exporter address secret ↔ secret = pair.secret := by
  have text : ExportedKey.ofText? "cMahea7zqjxrtgAbB7LSGbcQUr1uX1ojuat9jZodMN87L7FgDCKE" =
      some ⟨pair.secret, true, false⟩ := by decide +kernel
  simp only [Wallet.Exports, exporter, Except.ok.injEq, ↓existsAndEq, true_and, exportedKey?,
    Json.text?_ofText, Option.bind_some, text, Option.some.injEq]
  exact eq_comm

end Sample

namespace Wallet

open Sample in
theorem sample_own_key_signs :
    ∃ path s, (staking 100000).unbondingPath = .ok path ∧
      outcome exporter (signByKey (ownRequest path)) = .ok s ∧
      (ownRequest path).Verified pair.publicKey.xOnly s := by
  obtain ⟨path, revealed, hscript⟩ := LockedOutput.unbondingPath_eq_ok (staking_built 100000)
  have shape := (unbound 2 version_two).shape (by decide)
  have message : (ownRequest path).digest = .ok (unbound 2 version_two).digest := by
    rw [SigningRequest.digest, ownRequest, shape.spendDigest, RevealedLeaf.leafHash, hscript]
    rfl
  obtain ⟨signs, made, -⟩ := own_key_signs (ownRequest path) exporter
  obtain ⟨s, signed⟩ :=
    signs.mpr ⟨ownRequest_transfer path, pair.secret, exporter_exports_iff.mpr rfl, pair.derives⟩
  obtain ⟨signer, d, exported, -, hd, hs, verified⟩ := made s signed
  -- the pair that signed is the staker's, since the secret that was exported determines it
  have nonce : Schnorr.nonce (List.replicate 32 0) signer d ≠ 0 := by
    rw [KeyPair.eq_of_secret_eq (exporter_exports_iff.mp exported), ← Except.ok.inj (message.symm.trans hd)]
    exact unbound_nonce
  refine ⟨path, s, revealed, signed, ?_⟩
  rw [hs]
  exact verified _ nonce

end Wallet

end Countersign
