import Countersign.Proofs.Service.Accounting
import Countersign.Proofs.Service.Authentication

/-!
# What comes of a posted request

The checks on a request that is posted to the signing path stand in a fixed order, and the first that it
fails, if any, is its ruling. The reply and everything that happens besides are read off the ruling, which is
the only one that applies. The policy is asked under one of them, and what an internal error was is not seen
in the reply. A body within the configured limit may still be refused, for a limit that no configuration moves.
-/

set_option autoImplicit false

namespace Countersign

open Outcome

/-- What a posted request turns out to be, in the order in which it is found out. -/
inductive Ruling where
  | tooLarge
  | unauthorized (e : AuthError)
  | unbuffered
  | malformed (e : WireError)
  | decided (q : UnbondingRequest)

/-- A request that is posted to the signing path of a service, and everyone's answers to it. -/
structure Exchange where
  network : Network
  limits : ServiceLimits
  answers : Policy.Answers
  headers : List (String × Bytes)
  body : Bytes

namespace Exchange

def request (x : Exchange) : HttpRequest := ⟨"POST", Server.signPath, x.headers, x.body⟩

def attend (x : Exchange) : (c : Service.Question) → Service.Answer c
  | .count _ => ()
  | .report _ => ()
  | .inquire q => x.answers q

def handling (x : Exchange) : Dialogue Service HttpResponse := Server.handle x.network x.limits x.request

def reply (x : Exchange) : HttpResponse := Dialogue.outcome x.attend x.handling

def effects (x : Exchange) : List ServiceCall := Dialogue.questions x.attend x.handling

def declared? (x : Exchange) : Option ℕ := (x.request.header? "Content-Length").bind Http.declaredLength?

def TooLarge (x : Exchange) : Prop :=
  (∃ n, x.declared? = some n ∧ x.limits.maxContentLength < n) ∨ x.limits.maxContentLength < x.body.length

def code? (x : Exchange) : Option String := x.request.header? Auth.header

/-- The request is within the limit and, where a key is set, carries the code of its body. -/
structure Admitted (x : Exchange) : Prop where
  fits : ¬ x.TooLarge
  authentic : ∀ key, x.limits.hmacKey = some key →
    ∃ code, x.code? = some code ∧ Hex.lower code = Auth.generate key x.body

def parsed (x : Exchange) : Except WireError UnbondingRequest :=
  WireRequest.decode x.body >>= WireRequest.parse

/-- The ruling applies to the request. -/
inductive Rules (x : Exchange) : Ruling → Prop where
  | tooLarge (large : x.TooLarge) : x.Rules .tooLarge
  | unauthorized {key : String} {e : AuthError} (fits : ¬ x.TooLarge) (keyed : x.limits.hmacKey = some key)
      (refused : Auth.Refused key x.body x.code? e) : x.Rules (.unauthorized e)
  | unbuffered (admitted : x.Admitted) (long : Server.maxBuffered < x.body.length) : x.Rules .unbuffered
  | malformed {e : WireError} (admitted : x.Admitted) (short : x.body.length ≤ Server.maxBuffered)
      (parsed : x.parsed = .error e) : x.Rules (.malformed e)
  | decided {q : UnbondingRequest} (admitted : x.Admitted) (short : x.body.length ≤ Server.maxBuffered)
      (parsed : x.parsed = .ok q) : x.Rules (.decided q)

def verdict (x : Exchange) (q : UnbondingRequest) : Except PolicyError Signature :=
  Policy.verdict x.answers (Policy.sign x.network q)

def asked (x : Exchange) (q : UnbondingRequest) : List Inquiry :=
  Policy.asked x.answers (Policy.sign x.network q)

def refusal (status : ℕ) (code : ErrorCode) (message : String) : HttpResponse :=
  .json status (ErrorResponse.encode ⟨code, message⟩)

def verdictReply : Except PolicyError Signature → HttpResponse
  | .ok signature => .json 200 (WireResponse.ofSignature signature).encode
  | .error e => match e.blame with
    | .invalidRequest => refusal 400 .badRequest e.message
    | .internal => refusal 500 .internalServiceError "Internal service error"

def replyTo (x : Exchange) : Ruling → HttpResponse
  | .tooLarge => refusal 413 .requestTooLarge "request body too large"
  | .unauthorized e => refusal 401 .unauthorized e.message
  | .unbuffered => Server.unbuffered
  | .malformed e => refusal 400 .badRequest e.message
  | .decided q => verdictReply (x.verdict q)

def recorded : Except PolicyError Signature → List ServiceCall
  | .ok _ => [.count .succeeded]
  | .error e => .count .failed :: match e.blame with
    | .invalidRequest => []
    | .internal => [.report s!"Internal error while signing: {e.message}"]

def effectsOf (x : Exchange) : Ruling → List ServiceCall
  | .decided q => .count .received :: ((x.asked q).map .inquire ++ recorded (x.verdict q))
  | _ => []

/-- The request ends in an error that is not the caller's. -/
def EndsInternally (x : Exchange) : Prop :=
  ∃ q e, x.Rules (.decided q) ∧ x.verdict q = .error e ∧ e.blame = .internal

def bodyRuling (x : Exchange) : Ruling :=
  if x.body.length > Server.maxBuffered then .unbuffered
  else match x.parsed with
    | .error e => .malformed e
    | .ok q => .decided q

def ruling (x : Exchange) : Ruling :=
  if Server.isTooLarge x.limits x.request then .tooLarge
  else match Server.authenticate x.limits x.request with
    | .error e => .unauthorized e
    | .ok () => x.bodyRuling

def course (network : Network) : Ruling → Dialogue Service HttpResponse
  | .tooLarge => Server.fail .requestTooLarge
  | .unauthorized e => Server.fail (.unauthorized e)
  | .unbuffered => .done Server.unbuffered
  | .malformed e => Server.fail (.badRequest e.message)
  | .decided q => Server.signRequest network q

section Screening

variable {x : Exchange}

theorem isTooLarge_iff : Server.isTooLarge x.limits x.request = true ↔ x.TooLarge := by
  show (x.declared?.any _ || decide (x.body.length > _)) = true ↔ _
  rw [TooLarge]
  cases x.declared? with
  | none => simp
  | some n => simp

theorem authenticate_eq_ok_iff :
    Server.authenticate x.limits x.request = .ok () ↔
      ∀ key, x.limits.hmacKey = some key → ∃ code, x.code? = some code ∧
        Hex.lower code = Auth.generate key x.body := by
  unfold Server.authenticate
  cases x.limits.hmacKey with
  | none => simp
  | some key =>
    simp only [Option.some.injEq, forall_eq']
    exact Auth.validate_eq_ok_iff

theorem authenticate_eq_error_iff {e : AuthError} :
    Server.authenticate x.limits x.request = .error e ↔
      ∃ key, x.limits.hmacKey = some key ∧ Auth.Refused key x.body x.code? e := by
  unfold Server.authenticate
  cases x.limits.hmacKey with
  | none => simp
  | some key =>
    simp only [Option.some.injEq, exists_eq_left']
    exact Auth.validate_eq_error_iff

theorem screen_eq_ok_iff :
    Server.screen x.limits x.request = .ok () ↔ Server.isTooLarge x.limits x.request = false ∧
      Server.authenticate x.limits x.request = .ok () := by
  rw [Server.screen]
  cases Server.isTooLarge x.limits x.request with
  | true => simp
  | false => simp [mapError_eq_ok]

theorem admitted_iff : x.Admitted ↔ Server.screen x.limits x.request = .ok () := by
  rw [screen_eq_ok_iff, authenticate_eq_ok_iff, Bool.eq_false_iff, Ne, isTooLarge_iff]
  exact ⟨fun h => ⟨h.fits, h.authentic⟩, fun h => ⟨h.1, h.2⟩⟩

theorem ruling_of_admitted (admitted : x.Admitted) : x.ruling = x.bodyRuling := by
  obtain ⟨fits, authentic⟩ := screen_eq_ok_iff.mp (admitted_iff.mp admitted)
  rw [ruling, fits, authentic]
  rfl

theorem rules_bodyRuling (admitted : x.Admitted) : x.Rules x.bodyRuling := by
  unfold bodyRuling
  split
  · rename_i long
    exact .unbuffered admitted long
  rename_i short
  split
  · rename_i e parsed
    exact .malformed admitted (Nat.not_lt.mp short) parsed
  · rename_i q parsed
    exact .decided admitted (Nat.not_lt.mp short) parsed

theorem rules_iff {ruling : Ruling} : x.Rules ruling ↔ x.ruling = ruling := by
  constructor
  · intro h
    cases h with
    | tooLarge large => rw [Exchange.ruling, if_pos (isTooLarge_iff.mpr large)]
    | unauthorized fits keyed refused =>
      rw [Exchange.ruling, if_neg (mt isTooLarge_iff.mp fits),
        authenticate_eq_error_iff.mpr ⟨_, keyed, refused⟩]
    | unbuffered admitted long => rw [ruling_of_admitted admitted, bodyRuling, if_pos long]
    | malformed admitted short parsed =>
      rw [ruling_of_admitted admitted, bodyRuling, if_neg (Nat.not_lt.mpr short), parsed]
    | decided admitted short parsed =>
      rw [ruling_of_admitted admitted, bodyRuling, if_neg (Nat.not_lt.mpr short), parsed]
  · rintro rfl
    by_cases large : x.TooLarge
    · rw [Exchange.ruling, if_pos (isTooLarge_iff.mpr large)]
      exact .tooLarge large
    cases authentic : Server.authenticate x.limits x.request with
    | error e =>
      obtain ⟨key, keyed, refused⟩ := authenticate_eq_error_iff.mp authentic
      rw [Exchange.ruling, if_neg (mt isTooLarge_iff.mp large), authentic]
      exact .unauthorized large keyed refused
    | ok u =>
      have admitted : x.Admitted := ⟨large, authenticate_eq_ok_iff.mp authentic⟩
      rw [ruling_of_admitted admitted]
      exact rules_bodyRuling admitted

theorem handleBody_eq (x : Exchange) :
    Server.handleBody x.network x.body = course x.network x.bodyRuling := by
  rw [Server.handleBody, bodyRuling, parsed]
  split
  · rfl
  · cases WireRequest.decode x.body >>= WireRequest.parse with
    | error e => rfl
    | ok q => rfl

theorem handling_eq (x : Exchange) : x.handling = course x.network x.ruling := by
  show Server.handle x.network x.limits x.request = _
  rw [Server.handle, if_neg (not_not.mpr (show x.request.path = Server.signPath from rfl)),
    if_pos (show x.request.method = "POST" from rfl), Server.screen, ruling]
  cases Server.isTooLarge x.limits x.request with
  | true => rfl
  | false =>
    cases Server.authenticate x.limits x.request with
    | error e => rfl
    | ok u => exact x.handleBody_eq

end Screening

section Deciding

variable (x : Exchange)

theorem outcome_decide (q : UnbondingRequest) :
    Dialogue.outcome x.attend (Server.decide x.network q) = x.verdict q :=
  Dialogue.outcome_translate (J := Service) x.attend _ _

theorem questions_decide (q : UnbondingRequest) :
    Dialogue.questions x.attend (Server.decide x.network q) =
      (x.asked q).map .inquire := by
  rw [Server.decide, Dialogue.questions_translate]
  exact List.map_eq_flatMap.symm

theorem outcome_fail (e : ApiError) : Dialogue.outcome x.attend (Server.fail e) = e.answer := by
  cases e with
  | _ => rfl

theorem outcome_course (ruling : Ruling) :
    Dialogue.outcome x.attend (course x.network ruling) = x.replyTo ruling := by
  cases ruling with
  | decided q =>
    show Dialogue.outcome x.attend ((Server.decide x.network q).bind _) = _
    rw [Dialogue.outcome_bind, outcome_decide, replyTo]
    cases x.verdict q with
    | ok signature => rfl
    | error e =>
      show Dialogue.outcome x.attend (Server.fail (.ofPolicy e)) = _
      rw [outcome_fail, ApiError.ofPolicy, verdictReply]
      cases e.blame <;> rfl
  | _ => rfl

theorem questions_course (ruling : Ruling) :
    Dialogue.questions x.attend (course x.network ruling) = x.effectsOf ruling := by
  cases ruling with
  | decided q =>
    show ServiceCall.count .received ::
      Dialogue.questions x.attend ((Server.decide x.network q).bind _) = _
    rw [Dialogue.questions_bind, questions_decide, outcome_decide, effectsOf]
    cases x.verdict q with
    | ok signature => rfl
    | error e =>
      simp only [ApiError.ofPolicy, recorded]
      cases e.blame <;> rfl
  | _ => rfl

end Deciding

section Replies

variable {x : Exchange} {ruling : Ruling}

theorem Rules.reply_eq (rules : x.Rules ruling) : x.reply = x.replyTo ruling := by
  rw [reply, handling_eq, rules_iff.mp rules, outcome_course]

theorem Rules.effects_eq (rules : x.Rules ruling) : x.effects = x.effectsOf ruling := by
  rw [effects, handling_eq, rules_iff.mp rules, questions_course]

theorem EndsInternally.reply_eq (internally : x.EndsInternally) :
    x.reply = refusal 500 .internalServiceError "Internal service error" := by
  obtain ⟨q, e, rules, failed, internal⟩ := internally
  rw [rules.reply_eq, replyTo, failed, verdictReply, internal]

theorem contentType_replyTo (buffered : ruling ≠ .unbuffered) :
    (x.replyTo ruling).contentType = some "application/json" := by
  cases ruling with
  | unbuffered => exact absurd rfl buffered
  | decided q =>
    rw [replyTo]
    cases x.verdict q with
    | ok signature => rfl
    | error e =>
      rw [verdictReply]
      cases e.blame <;> rfl
  | _ => rfl

theorem rules_unbuffered_iff :
    x.Rules .unbuffered ↔ x.Admitted ∧ Server.maxBuffered < x.body.length := by
  constructor
  · intro h
    cases h with
    | unbuffered admitted long => exact ⟨admitted, long⟩
  · rintro ⟨admitted, long⟩
    exact .unbuffered admitted long

end Replies

/-- One ruling applies to a posted request, and the reply and all that happens besides are its. Only a
request that is decided is counted, and the policy is asked once, about what its body says. Two that end in
errors of the service are told the same, whatever went wrong. The second limit is met by the long bodies that
the first admits. -/
theorem posted_request_ruled (x y : Exchange) :
    (∃ ruling, (∀ other, x.Rules other ↔ other = ruling) ∧
      x.reply = x.replyTo ruling ∧ x.effects = x.effectsOf ruling ∧
      (ruling = .unbuffered ↔ x.Admitted ∧ Server.maxBuffered < x.body.length)) ∧
    (x.EndsInternally → y.EndsInternally → x.reply = y.reply) := by
  constructor
  · have rules : x.Rules x.ruling := rules_iff.mpr rfl
    exact ⟨x.ruling, fun other => rules_iff.trans eq_comm, rules.reply_eq, rules.effects_eq,
      rules_iff.symm.trans rules_unbuffered_iff⟩
  · intro hx hy
    rw [hx.reply_eq, hy.reply_eq]

end Exchange

namespace Sample

open Policy Serving

def failing (lookup : Except ChainError Inclusion) : Answers
  | .transaction _ _ => lookup
  | .tip => .error (.node (.rpc (.transport .closed)))
  | .parameters height => schedule.parametersAt height
  | .signature _ => .ok approval

def exchange (lookup : Except ChainError Inclusion) : Exchange :=
  ⟨.signet, limits, failing lookup, [], posted.body⟩

theorem exchange_rules (lookup : Except ChainError Inclusion) :
    (exchange lookup).Rules (.decided waiting) :=
  .decided (Exchange.admitted_iff.mpr posted_wellFormed.screened)
    (Nat.not_lt.mp posted_wellFormed.buffered) posted_parsed

theorem exchange_verdict (lookup : Except ChainError Inclusion) :
    (exchange lookup).verdict waiting =
      lookup.mapError .ofLookup >>= fun _ => .error (.chain (.node (.rpc (.transport .closed)))) := by
  have shape : waiting.transaction.AwaitsSignature spending (unbonding 99000).txOut :=
    ⟨rfl, rfl, by decide, rfl, rfl, rfl, rfl, .inr rfl⟩
  have parts := Transaction.awaitingSignature_eq_ok.mpr shape
  have taproot : Script.isTaproot waiting.stakingScript = true := by decide +kernel
  show verdict (failing lookup) (sign .signet waiting) = _
  unfold sign
  rw [parts, taproot]
  cases lookup with
  | error e => rfl
  | ok inclusion => rfl

/-- Blanks that the limit admits and no handler reads. -/
def blanks : Exchange :=
  ⟨.signet, ⟨3000000, none⟩, failing (.ok ⟨plan.within surroundings, 200⟩), [],
    List.replicate 2097153 0x20⟩

theorem blanks_admitted : blanks.Admitted := by
  have length : blanks.body.length = 2097153 := List.length_replicate
  refine ⟨?_, nofun⟩
  rintro (⟨n, declared, -⟩ | large)
  · cases declared
  · rw [length] at large
    exact absurd large (by decide)

theorem blanks_unbuffered : blanks.Rules .unbuffered := by
  have length : blanks.body.length = 2097153 := List.length_replicate
  refine .unbuffered blanks_admitted ?_
  rw [length]
  decide

end Sample

namespace Exchange

open Sample in
/-- The node refuses the lookup in one exchange, and is lost after it in the other. -/
theorem sample_errors_redacted :
    (exchange (.error (.node (.rpc (.transport .refused))))).EndsInternally ∧
      (exchange (.ok ⟨plan.within surroundings, 200⟩)).EndsInternally ∧
      (exchange (.error (.node (.rpc (.transport .refused))))).reply =
        (exchange (.ok ⟨plan.within surroundings, 200⟩)).reply := by
  have refused : (exchange (.error (.node (.rpc (.transport .refused))))).EndsInternally :=
    ⟨waiting, _, exchange_rules _, exchange_verdict _, rfl⟩
  have lost : (exchange (.ok ⟨plan.within surroundings, 200⟩)).EndsInternally :=
    ⟨waiting, _, exchange_rules _, exchange_verdict _, rfl⟩
  exact ⟨refused, lost, (posted_request_ruled _ _).2 refused lost⟩

open Sample in
/-- Who sends a long body within the limit is not told what is wrong with it. -/
theorem admitted_body_unbuffered : ¬ ∀ x : Exchange, x.Admitted →
    (∃ e, x.parsed = .error e ∧ x.reply = x.replyTo (.malformed e)) ∨
      ∃ q, x.parsed = .ok q ∧ x.reply = x.replyTo (.decided q) := by
  intro h
  have plain : blanks.reply.contentType ≠ some "application/json" := by
    rw [blanks_unbuffered.reply_eq]
    decide
  rcases h blanks blanks_admitted with ⟨e, -, reply⟩ | ⟨q, -, reply⟩
  · rw [reply] at plain
    exact plain (contentType_replyTo nofun)
  · rw [reply] at plain
    exact plain (contentType_replyTo nofun)

end Exchange

end Countersign
