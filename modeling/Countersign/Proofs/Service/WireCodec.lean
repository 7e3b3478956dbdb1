import Countersign.Service.Wire
import Countersign.Proofs.FirstFailure
import Countersign.Proofs.Hex
import Countersign.Proofs.Json.Writing
import Countersign.Proofs.Bitcoin.Transactions

/-!
# Requests, responses and their text

A request is written in one way and read from that text and from those that differ from it in the case of
their digits. For each field this is one equivalence; together they say what is parsed, and where one of
them fails the first field in the order of parsing is named. Responses are read back whatever they hold.
-/

set_option autoImplicit false

namespace Countersign

open Outcome

theorem Signature.ofBytes?_eq_some_iff {b : Bytes} {s : Signature} : ofBytes? b = some s ↔ b = s.bytes := by
  constructor
  · intro h
    simp only [ofBytes?] at h
    split at h
    · cases h
      rfl
    · cases h
  · rintro rfl
    exact ofBytes?_bytes s

section Readers

variable {α : Type} {s : String} {a : α}

theorem orError_eq_ok {ε : Type} {e : ε} {x : Option α} : orError e x = .ok a ↔ x = some a := by
  cases x with
  | none => simp [orError]
  | some b => simp [orError]

theorem orError_eq_error {ε : Type} {d e : ε} {x : Option α} :
    orError d x = .error e ↔ d = e ∧ ¬ ∃ a, x = some a := by
  cases x with
  | none => simp [orError]
  | some b => simp [orError]

/-- What is read from bytes that only it writes is read from the text of those bytes, in either case. -/
theorem Hex.bind_eq_some_iff {read : Bytes → Option α} {write : α → Bytes}
    (inverse : ∀ b a, read b = some a ↔ b = write a) :
    (Hex.decode? s).bind read = some a ↔ lower s = encode (write a) := by
  simp only [Option.bind_eq_some_iff, inverse, exists_eq_right, decode?_eq_some_iff]

end Readers

namespace WireRequest

theorem compressedKey?_eq_some_iff (b : Bytes) (k : PublicKey) : compressedKey? b = some k ↔ b = k.bytes := by
  unfold compressedKey?
  split
  · rename_i h
    exact PublicKey.ofBytes?_eq_some_iff h
  · rename_i h
    simp only [reduceCtorEq, false_iff]
    rintro rfl
    exact h k.bytes_length

def lower (w : WireRequest) : WireRequest :=
  { stakingScript := Hex.lower w.stakingScript
    transaction := Hex.lower w.transaction
    stakerSignature := Hex.lower w.stakerSignature
    covenantKey := Hex.lower w.covenantKey }

inductive Field where
  | stakingScript
  | covenantKey
  | transaction
  | stakerSignature
  deriving DecidableEq

namespace Field

def inOrder : List Field := [.stakingScript, .covenantKey, .transaction, .stakerSignature]

def text (w : WireRequest) : Field → String
  | .stakingScript => w.stakingScript
  | .covenantKey => w.covenantKey
  | .transaction => w.transaction
  | .stakerSignature => w.stakerSignature

def error : Field → WireError
  | .stakingScript => .invalidScript
  | .covenantKey => .invalidCovenantKey
  | .transaction => .invalidTransaction
  | .stakerSignature => .invalidSignature

/-- What the field holds in a request that was written, of which only a transaction can be too long. -/
def Written (s : String) : Field → Prop
  | .stakingScript => ∃ script : Script, s = Hex.encode script
  | .covenantKey => ∃ k : PublicKey, s = Hex.encode k.bytes
  | .transaction => ∃ t : Transaction, t.encode.length ≤ Transaction.maxTextBytes ∧ s = t.text
  | .stakerSignature => ∃ signature : Signature, s = Hex.encode signature.bytes

end Field

/-- The field is not what any request has there, whatever the case of the digits. -/
def Bad (w : WireRequest) (f : Field) (e : WireError) : Prop :=
  f.error = e ∧ ¬ f.Written (Hex.lower (f.text w))

section Laws

variable {w : WireRequest} {r : UnbondingRequest}

theorem ofText?_eq_some_iff {s : String} {t : Transaction} :
    Transaction.ofText? s = some t ↔
      t.encode.length ≤ Transaction.maxTextBytes ∧ Hex.lower s = t.text := by
  rw [Transaction.ofText?_eq_some_iff, Hex.decode?_eq_some_iff, Transaction.text]

theorem lower_ofRequest : (ofRequest r).lower = ofRequest r := by
  simp only [lower, ofRequest, Transaction.text, Hex.lower_encode]

theorem parse_eq_ok_iff :
    w.parse = .ok r ↔ ofRequest r = w.lower ∧ r.transaction.encode.length ≤ Transaction.maxTextBytes := by
  simp only [parse, bind_eq_ok, orError_eq_ok, Hex.decode?_eq_some_iff,
    Hex.bind_eq_some_iff compressedKey?_eq_some_iff, ofText?_eq_some_iff,
    Hex.bind_eq_some_iff fun _ _ => Signature.ofBytes?_eq_some_iff, pure_eq_ok]
  constructor
  · rintro ⟨script, hs, key, hk, transaction, ⟨hl, ht⟩, signature, hg, rfl⟩
    exact ⟨by simp only [ofRequest, lower, hs, hk, ht, hg], hl⟩
  · rintro ⟨h, hl⟩
    simp only [ofRequest, lower, WireRequest.mk.injEq] at h
    obtain ⟨hs, ht, hg, hk⟩ := h
    exact ⟨_, hs.symm, _, hk.symm, _, ⟨hl, ht.symm⟩, _, hg.symm, rfl⟩

theorem parse_follows (w : WireRequest) : Follows w.Bad Field.inOrder w.parse := by
  unfold parse
  refine .bind (fun e => ?_) fun script _ => .bind (fun e => ?_) fun key _ =>
    .bind (fun e => ?_) fun transaction _ => .bind (fun e => ?_) fun signature _ => .ok _
  · simp only [orError_eq_error, Hex.decode?_eq_some_iff, Bad, Field.Written, Field.error, Field.text]
  · simp only [orError_eq_error, Hex.bind_eq_some_iff compressedKey?_eq_some_iff, Bad, Field.Written,
      Field.error, Field.text]
  · simp only [orError_eq_error, ofText?_eq_some_iff, Bad, Field.Written, Field.error, Field.text]
  · simp only [orError_eq_error, Hex.bind_eq_some_iff fun _ _ => Signature.ofBytes?_eq_some_iff, Bad,
      Field.Written, Field.error, Field.text]

end Laws

theorem decode_encode (w : WireRequest) : decode w.encode = .ok w := by
  have readable : Json.Readable w.toJson := Json.readable_texts (by simp [fields])
  have record : ofJson? w.toJson = some w := by
    rw [ofJson?, toJson, Json.record?_ofMembers (by simp [fields]) (by simp [fields])]
    simp only [fields, List.zip_cons_cons, List.zip_nil_right, Option.bind_eq_bind, Option.bind_some,
      Json.Record.required_recordOf, List.lookup_cons, String.reduceBEq, Json.text?_ofText]
    rfl
  rw [decode, encode, Json.ofBytes?_encode readable, Option.bind_some, record]
  rfl

theorem length_script_lt (w : WireRequest) : (Utf8.encode w.stakingScript).length < w.encode.length := by
  have quoted := Json.length_lt_quote (Utf8.encode w.stakingScript)
  simp only [encode, toJson, Json.ofMembers, fields, Json.ofText, List.zip_cons_cons, List.map_cons,
    Json.encode, List.length_cons, List.length_append]
  omega

/-- A request is parsed back from what is written of it, unless its transaction is longer than is read.
A text that is parsed is, in lower case, what is written of the request that is read. The error of any other
names its first bad field. -/
theorem parse_inverts_ofRequest :
    (∀ r, (ofRequest r).parse = .ok r ↔ r.transaction.encode.length ≤ Transaction.maxTextBytes) ∧
      (∀ (w : WireRequest) r, w.parse = .ok r ↔
        ofRequest r = w.lower ∧ r.transaction.encode.length ≤ Transaction.maxTextBytes) ∧
      ∀ (w : WireRequest) e, w.parse = .error e ↔
        ∃ before f, FirstFailure w.Bad Field.inOrder before f e := by
  refine ⟨?_, fun w r => parse_eq_ok_iff, parse_follows⟩
  intro r
  rw [parse_eq_ok_iff, lower_ofRequest]
  exact and_iff_right rfl

end WireRequest

namespace WireResponse

theorem decode?_encode (w : WireResponse) : decode? w.encode = some w := by
  have readable : Json.Readable w.toJson := by
    apply Json.readable_ofMembers
    intro m hm
    rw [List.mem_singleton.mp hm]
    exact Json.readable_texts (by simp)
  have record : ofJson? w.toJson = some w := by
    rw [ofJson?, toJson, Json.record?_ofMembers (by simp) (by simp)]
    simp only [Option.bind_eq_bind, Option.bind_some, Json.Record.required_recordOf, List.lookup_cons,
      BEq.rfl]
    rw [Json.record?_ofMembers (by simp) (by simp)]
    simp only [Option.bind_some, Json.Record.required_recordOf, List.lookup_cons, BEq.rfl, Json.text?_ofText]
    rfl
  rw [decode?, encode, Json.ofBytes?_encode readable, Option.bind_some, record]

theorem signature?_ofSignature (s : Signature) : (ofSignature s).signature? = some s := by
  rw [signature?, ofSignature, Hex.decode?_encode, Option.bind_some, Signature.ofBytes?_bytes]

end WireResponse

theorem ErrorCode.ofJson?_text (c : ErrorCode) : ofJson? (Json.ofText c.text) = some c := by
  cases c <;> decide +kernel

theorem ErrorResponse.decode?_encode (e : ErrorResponse) : decode? e.encode = some e := by
  have readable : Json.Readable e.toJson := Json.readable_texts (by simp)
  have record : ofJson? e.toJson = some e := by
    rw [ofJson?, toJson, Json.record?_ofMembers (by simp) (by simp)]
    simp only [Option.bind_eq_bind, Option.bind_some, Json.Record.required_recordOf, List.lookup_cons,
      String.reduceBEq, ErrorCode.ofJson?_text, Json.text?_ofText]
    rfl
  rw [decode?, encode, Json.ofBytes?_encode readable, Option.bind_some, record]

end Countersign
