import Countersign.Proofs.Service.Rulings
import Countersign.Service.Client

/-!
# What a caller learns

A client writes a request and its code, the service rules on what arrives, and the client reads the reply.
Where they share a key or the service has none, the client ends with what the policy said of the request that
was meant: the signature, the caller's fault in its own words, or that something failed inside. A request too
long to be read ends in none of these, and one whose code is missing never reaches the policy.
-/

set_option autoImplicit false

namespace Countersign

namespace Client

open HttpRequest

theorem visible_generate (key : String) (body : Bytes) :
    (Utf8.encode (Auth.generate key body)).all isVisible = true := by
  have digit : ∀ n < 16, isVisible (Hex.digitByte n) = true := by decide
  rw [Auth.generate, Hex.utf8_encode, Hex.encodeBytes, List.all_flatMap, List.all_eq_true]
  intro x _
  have hx := x.toNat_lt
  simp only [List.all_cons, List.all_nil, digit (x.toNat / 16) (by omega), digit (x.toNat % 16) (by omega),
    Bool.and_self]

theorem header?_request (key : Option String) (path : String) (w : WireRequest) :
    (request key path w).header? Auth.header = key.map fun key => Auth.generate key w.encode := by
  cases key with
  | none => rfl
  | some key =>
    have found : (request (some key) path w).headers.find?
        (fun h => lower h.1 == lower Auth.header) =
          some (Auth.header, Utf8.encode (Auth.generate key w.encode)) := by
      have apart : (lower "content-type" == lower Auth.header) = false := by decide
      rw [request, List.find?_cons_of_neg (by simp [apart]), List.find?_cons_of_pos (by simp)]
    rw [header?, found]
    simp only [Option.bind_eq_bind, Option.bind_some, visible_generate, if_true, Utf8.decode?_encode,
      Option.map_some]

def reading (r : HttpResponse) : Except ClientError Signature := outcome (some (r.status, r.body))

section Reading

variable {r : HttpResponse}

theorem reading_success {w : WireResponse} (success : r.status = 200)
    (body : WireResponse.decode? r.body = some w) : reading r = orError .invalidSignature w.signature? := by
  have kind : isFinal 200 = true ∧ isBare 200 = false ∧ isSuccess 200 = true := by decide
  simp only [reading, outcome, success, kind, if_true, Bool.false_eq_true, if_false, read, body]

theorem failure_kinds : ∀ status ∈ [400, 401, 413, 500],
    isFinal status = true ∧ isBare status = false ∧ isSuccess status = false := by decide

theorem reading_rejection {e : ErrorResponse} (failure : r.status ∈ [400, 401, 413, 500])
    (body : ErrorResponse.decode? r.body = some e) :
    reading r = .error (.rejected r.status e.code e.message) := by
  simp only [reading, outcome, failure_kinds _ failure, if_true, Bool.false_eq_true, if_false, read, body]

theorem reading_unexpected (failure : r.status ∈ [400, 401, 413, 500])
    (body : ErrorResponse.decode? r.body = none) : reading r = .error (.unexpectedStatus r.status) := by
  simp only [reading, outcome, failure_kinds _ failure, if_true, Bool.false_eq_true, if_false, read, body]

theorem reading_refusal {status : ℕ} (failure : status ∈ [400, 401, 413, 500]) (code : ErrorCode)
    (message : String) :
    reading (Exchange.refusal status code message) = .error (.rejected status code message) := by
  have body : (Exchange.refusal status code message).body = ErrorResponse.encode ⟨code, message⟩ := rfl
  rw [reading_rejection failure (body ▸ ErrorResponse.decode?_encode ⟨code, message⟩)]
  rfl

theorem reading_signature (s : Signature) :
    reading (.json 200 (WireResponse.ofSignature s).encode) = .ok s := by
  have body : (HttpResponse.json 200 (WireResponse.ofSignature s).encode).body =
      (WireResponse.ofSignature s).encode := rfl
  rw [reading_success rfl (body ▸ WireResponse.decode?_encode _), WireResponse.signature?_ofSignature]
  rfl

theorem reading_unbuffered : reading Server.unbuffered = .error (.unexpectedStatus 413) := by
  have unreadable : ErrorResponse.decode? Server.unbuffered.body = none := rfl
  rw [reading_unexpected (by decide) unreadable]
  rfl

end Reading

end Client

namespace Exchange

/-- The request arrives as it was sent. What is put around it on the way is no code, and if it declares a
length, that of the body. -/
structure Delivers (x : Exchange) (sent : HttpRequest) : Prop where
  path : sent.path = Server.signPath
  method : sent.method = "POST"
  body : x.body = sent.body
  code : x.code? = sent.header? Auth.header
  declared : ∀ n, x.declared? = some n → n = sent.body.length

/-- What the client should end with, when the service gets to read what it wrote. -/
inductive Owes (x : Exchange) (w : WireRequest) : Except ClientError Signature → Prop where
  | malformed {e : WireError} (parsed : w.parse = .error e) :
      x.Owes w (.error (.rejected 400 .badRequest e.message))
  | signed {q : UnbondingRequest} {s : Signature} (parsed : w.parse = .ok q)
      (approved : x.verdict q = .ok s) : x.Owes w (.ok s)
  | refused {q : UnbondingRequest} {e : PolicyError} (parsed : w.parse = .ok q)
      (refused : x.verdict q = .error e) (blamed : e.blame = .invalidRequest) :
      x.Owes w (.error (.rejected 400 .badRequest e.message))
  | failed {q : UnbondingRequest} {e : PolicyError} (parsed : w.parse = .ok q)
      (failed : x.verdict q = .error e) (internal : e.blame = .internal) :
      x.Owes w (.error (.rejected 500 .internalServiceError "Internal service error"))

/-- Something is owed, whatever the request says and whatever the policy makes of it. -/
theorem exists_owes (x : Exchange) (w : WireRequest) : ∃ result, x.Owes w result := by
  cases parsed : w.parse with
  | error e => exact ⟨_, .malformed parsed⟩
  | ok q =>
    cases decision : x.verdict q with
    | ok s => exact ⟨_, .signed parsed decision⟩
    | error e =>
      cases blamed : e.blame with
      | invalidRequest => exact ⟨_, .refused parsed decision blamed⟩
      | internal => exact ⟨_, .failed parsed decision blamed⟩

section Delivery

variable {x : Exchange} {key : Option String} {w : WireRequest}
  (delivers : x.Delivers (Client.request key Server.signPath w))

include delivers

theorem Delivers.parsed_eq : x.parsed = w.parse := by
  rw [parsed, delivers.body]
  show WireRequest.decode w.encode >>= _ = _
  rw [WireRequest.decode_encode]
  rfl

theorem Delivers.code_eq : x.code? = key.map fun key => Auth.generate key w.encode :=
  delivers.code.trans (Client.header?_request key Server.signPath w)

variable (admits : w.encode.length ≤ x.limits.maxContentLength)

include admits

theorem Delivers.fits : ¬ x.TooLarge := by
  have body : x.body = w.encode := delivers.body
  rintro (⟨n, declared, large⟩ | large)
  · rw [delivers.declared n declared] at large
    exact Nat.not_lt.mpr admits large
  · rw [body] at large
    exact Nat.not_lt.mpr admits large

theorem Delivers.rules_of_no_key {k : String} (keyed : x.limits.hmacKey = some k) (without : key = none) :
    x.Rules (.unauthorized .missing) := by
  refine .unauthorized (delivers.fits admits) keyed (.missing (.inl ?_))
  rw [delivers.code_eq, without]
  rfl

variable (shared : x.limits.hmacKey = none ∨ x.limits.hmacKey = key)

include shared

theorem Delivers.admitted : x.Admitted := by
  refine ⟨delivers.fits admits, ?_⟩
  intro k keyed
  rcases shared with none | same
  · rw [none] at keyed
    cases keyed
  · rw [delivers.code_eq, ← same, keyed, delivers.body]
    exact ⟨_, rfl, Auth.lower_generate k w.encode⟩

theorem Owes.reading_eq {result : Except ClientError Signature} (owes : x.Owes w result)
    (short : w.encode.length ≤ Server.maxBuffered) : Client.reading x.reply = result := by
  have admitted := delivers.admitted admits shared
  have read : x.body.length ≤ Server.maxBuffered := by
    rw [delivers.body]
    exact short
  cases owes with
  | malformed parsed =>
    rw [(Rules.malformed admitted read (delivers.parsed_eq.trans parsed)).reply_eq]
    exact Client.reading_refusal (by decide) _ _
  | signed parsed approved =>
    rw [(Rules.decided admitted read (delivers.parsed_eq.trans parsed)).reply_eq, replyTo, approved]
    exact Client.reading_signature _
  | refused parsed refused blamed =>
    rw [(Rules.decided admitted read (delivers.parsed_eq.trans parsed)).reply_eq, replyTo, refused,
      verdictReply, blamed]
    exact Client.reading_refusal (by decide) _ _
  | failed parsed failed internal =>
    rw [(Rules.decided admitted read (delivers.parsed_eq.trans parsed)).reply_eq, replyTo, failed,
      verdictReply, internal]
    exact Client.reading_refusal (by decide) _ _

theorem Delivers.rules_of_long (long : Server.maxBuffered < w.encode.length) : x.Rules .unbuffered := by
  refine .unbuffered (delivers.admitted admits shared) ?_
  rw [delivers.body]
  exact long

end Delivery

/-- A client whose request arrives at a service that admits it, with the key of the service if that has one,
learns what is owed on the request it meant and nothing else, if its body is not too long to be read. If it is,
or the client has no key for the service, the policy is not asked. -/
theorem client_learns_outcome {x : Exchange} {key : Option String} {w : WireRequest}
    (delivers : x.Delivers (Client.request key Server.signPath w))
    (admits : w.encode.length ≤ x.limits.maxContentLength) :
    (x.limits.hmacKey = none ∨ x.limits.hmacKey = key →
      (w.encode.length ≤ Server.maxBuffered →
        ∀ result, Client.reading x.reply = result ↔ x.Owes w result) ∧
      (Server.maxBuffered < w.encode.length →
        Client.reading x.reply = .error (.unexpectedStatus 413) ∧ x.effects = [])) ∧
    (x.limits.hmacKey ≠ none → key = none →
      Client.reading x.reply = .error (.rejected 401 .unauthorized "missing HMAC header") ∧
        x.effects = []) := by
  refine ⟨fun shared => ⟨?_, ?_⟩, ?_⟩
  · intro short result
    constructor
    · rintro rfl
      obtain ⟨result, owes⟩ := x.exists_owes w
      rwa [owes.reading_eq delivers admits shared short]
    · intro owes
      exact owes.reading_eq delivers admits shared short
  · intro long
    have rules := delivers.rules_of_long admits shared long
    rw [rules.reply_eq, rules.effects_eq]
    exact ⟨Client.reading_unbuffered, rfl⟩
  · intro keyed without
    obtain ⟨k, keyed⟩ := Option.ne_none_iff_exists'.mp keyed
    have rules := delivers.rules_of_no_key admits keyed without
    rw [rules.reply_eq, rules.effects_eq]
    exact ⟨Client.reading_refusal (by decide) _ _, rfl⟩

end Exchange

namespace Sample

open Client

def sent : HttpRequest := Client.request (some "shared") Server.signPath (WireRequest.ofRequest waiting)

def arrived : Exchange :=
  ⟨.signet, ⟨10000, some "shared"⟩, failing (.ok ⟨plan.within surroundings, 200⟩),
    ("Host", Utf8.encode "localhost") :: sent.headers, sent.body⟩

theorem arrived_delivers : arrived.Delivers sent := ⟨rfl, rfl, rfl, rfl, nofun⟩

def long : WireRequest := ⟨String.ofList (List.replicate Server.maxBuffered 'g'), "", "", ""⟩

theorem long_length : Server.maxBuffered < long.encode.length := by
  have script : ∀ n, (Utf8.encode (String.ofList (List.replicate n 'g'))).length = n := by
    intro n
    simp [Utf8.encode, show 'g'.utf8Size = 1 from rfl]
  have h := long.length_script_lt
  rwa [show long.stakingScript = String.ofList (List.replicate Server.maxBuffered 'g') from rfl, script] at h

def arrivedLong : Exchange :=
  ⟨.signet, ⟨long.encode.length, none⟩, failing (.ok ⟨plan.within surroundings, 200⟩),
    (Client.request none Server.signPath long).headers, long.encode⟩

theorem arrivedLong_delivers : arrivedLong.Delivers (Client.request none Server.signPath long) :=
  ⟨rfl, rfl, rfl, rfl, nofun⟩

end Sample

namespace Exchange

open Sample in
/-- The client knows that the service failed, and not how. -/
theorem sample_client_learns :
    Client.reading arrived.reply =
      .error (.rejected 500 .internalServiceError "Internal service error") := by
  have short : (WireRequest.ofRequest waiting).encode.length ≤ 10000 := Nat.not_lt.mp posted_short
  have failed : arrived.verdict waiting = .error (.chain (.node (.rpc (.transport .closed)))) :=
    exchange_verdict (.ok ⟨plan.within surroundings, 200⟩)
  have learns := (client_learns_outcome arrived_delivers short).1 (.inr rfl)
  exact (learns.1 (Nat.le_trans short (by decide)) _).mpr (.failed waiting_parsed failed rfl)

open Sample in
/-- A request within the limit is answered with something else than what is owed. -/
theorem long_request_owed : ¬ ∀ (x : Exchange) (key : Option String) (w : WireRequest),
    x.Delivers (Client.request key Server.signPath w) →
    w.encode.length ≤ x.limits.maxContentLength → x.limits.hmacKey = key →
    ∃ result, x.Owes w result ∧ Client.reading x.reply = result := by
  intro h
  have learned : Client.reading arrivedLong.reply = .error (.unexpectedStatus 413) := by
    rw [(arrivedLong_delivers.rules_of_long (Nat.le_refl _) (.inl rfl) long_length).reply_eq]
    exact Client.reading_unbuffered
  obtain ⟨result, owes, learns⟩ := h arrivedLong none long arrivedLong_delivers (Nat.le_refl _) rfl
  rw [learned] at learns
  subst learns
  cases owes

end Exchange

end Countersign
