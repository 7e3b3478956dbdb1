import Countersign.Service.Auth
import Countersign.Service.Metrics
import Countersign.Service.Wire

/-!
# The signing service

A request to the signing path passes a limit on its size and, where a key is set, authentication of its
raw body. A well-formed request is counted and goes to the policy; its outcome is counted again and
answered. What went wrong inside the service is reported to its operator and never to the caller.
-/

set_option autoImplicit false

namespace Countersign

inductive ServiceCall where
  | count (c : Counter)
  | report (message : String)
  | inquire (q : Inquiry)

def ServiceCall.Answer : ServiceCall → Type
  | .count _ => Unit
  | .report _ => Unit
  | .inquire q => q.Answer

def Service : Interface := ⟨ServiceCall, ServiceCall.Answer⟩

structure ServiceLimits where
  maxContentLength : Nat
  hmacKey : Option String
  deriving DecidableEq

inductive ApiError where
  | badRequest (message : String)
  | unauthorized (e : AuthError)
  | requestTooLarge
  | internal (message : String)
  deriving DecidableEq

namespace ApiError

def status : ApiError → Nat
  | .badRequest _ => 400
  | .unauthorized _ => 401
  | .requestTooLarge => 413
  | .internal _ => 500

def response : ApiError → ErrorResponse
  | .badRequest message => ⟨.badRequest, message⟩
  | .unauthorized e => ⟨.unauthorized, e.message⟩
  | .requestTooLarge => ⟨.requestTooLarge, "request body too large"⟩
  | .internal _ => ⟨.internalServiceError, "Internal service error"⟩

def answer (e : ApiError) : HttpResponse := .json e.status e.response.encode

def ofPolicy (e : PolicyError) : ApiError :=
  match e.blame with
  | .invalidRequest => .badRequest e.message
  | .internal => .internal e.message

end ApiError

namespace Server

def signPath : String := "/v1/sign-unbonding-tx"

/-- The largest body that the handler reads, whatever the configured limit. -/
def maxBuffered : Nat := 2097152

def report (message : String) : Dialogue Service Unit :=
  .ask (.report s!"Internal error while signing: {message}") fun _ => .done ()

def count (c : Counter) : Dialogue Service Unit := .ask (.count c) fun _ => .done ()

def fail (e : ApiError) : Dialogue Service HttpResponse := do
  match e with
  | .internal message => report message
  | _ => pure ()
  return e.answer

def decide (network : Network) (r : UnbondingRequest) :
    Dialogue Service (Except PolicyError Signature) :=
  (Policy.sign network r).run.translate fun q => Dialogue.ask (.inquire q) Dialogue.done

def signRequest (network : Network) (r : UnbondingRequest) : Dialogue Service HttpResponse := do
  count .received
  match ← decide network r with
  | .ok signature =>
    count .succeeded
    return .json 200 (WireResponse.ofSignature signature).encode
  | .error e =>
    count .failed
    fail (.ofPolicy e)

def unbuffered : HttpResponse :=
  { status := 413, contentType := some "text/plain; charset=utf-8", allow := none
    body := Utf8.encode "Failed to buffer the request body: length limit exceeded" }

def handleBody (network : Network) (body : Bytes) : Dialogue Service HttpResponse :=
  if body.length > maxBuffered then return unbuffered
  else
    match WireRequest.decode body >>= WireRequest.parse with
    | .ok r => signRequest network r
    | .error e => fail (.badRequest e.message)

/-- A declared length is checked before the body is measured. -/
def isTooLarge (limits : ServiceLimits) (r : HttpRequest) : Bool :=
  ((r.header? "Content-Length").bind Http.declaredLength?).any (· > limits.maxContentLength) ||
    r.body.length > limits.maxContentLength

def authenticate (limits : ServiceLimits) (r : HttpRequest) : Except AuthError Unit :=
  match limits.hmacKey with
  | none => .ok ()
  | some key => Auth.validate key r.body (r.header? Auth.header)

/-- What a request to the signing path has to pass, whatever its method. -/
def screen (limits : ServiceLimits) (r : HttpRequest) : Except ApiError Unit :=
  if isTooLarge limits r then .error .requestTooLarge
  else (authenticate limits r).mapError .unauthorized

def handle (network : Network) (limits : ServiceLimits) (r : HttpRequest) :
    Dialogue Service HttpResponse :=
  if r.path ≠ signPath then return .bare 404
  else if r.method = "POST" then
    match screen limits r with
    | .error e => fail e
    | .ok () => handleBody network r.body
  else
    let refusal := match screen limits r with
      | .error e => e.answer
      | .ok () => .bare 405
    return { refusal with allow := some "POST" }

def timedOut : Dialogue Service HttpResponse := fail (.internal "request timed out")

end Server

end Countersign
