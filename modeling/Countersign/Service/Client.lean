import Countersign.Net.Url
import Countersign.Service.Auth
import Countersign.Service.Server

/-!
# The client

A client posts a wire request to the signing path below a base address and reads the answer: a success
must hold a signature, and anything else an error response.
-/

set_option autoImplicit false

namespace Countersign

inductive ClientError where
  | http
  | unreadable
  | rejected (status : Nat) (code : ErrorCode) (message : String)
  | unexpectedStatus (status : Nat)
  | invalidSignature
  deriving DecidableEq

namespace ClientError

def message : ClientError → String
  | .http => "HTTP error"
  | .unreadable => "Serialization error"
  | .rejected status code message => s!"signer rejected request ({status}, {code.name}): {message}"
  | .unexpectedStatus status => s!"unexpected response status {status}"
  | .invalidSignature => "signer returned a malformed signature"

end ClientError

namespace Client

def trimSlashes (s : String) : String :=
  String.ofList (s.toList.reverse.dropWhile (· == '/')).reverse

def address (base : String) : String := trimSlashes base ++ Server.signPath

def target? (host base : String) : Option String := Url.target? host (address base)

def request (hmacKey : Option String) (path : String) (w : WireRequest) : HttpRequest :=
  let body := w.encode
  let auth := match hmacKey with
    | none => []
    | some key => [(Auth.header, Utf8.encode (Auth.generate key body))]
  { method := "POST", path, body
    headers := ("content-type", Utf8.encode "application/json") :: auth }

def isSuccess (status : Nat) : Bool := 200 ≤ status && status < 300

def read (status : Nat) (body : Bytes) : Except ClientError Signature :=
  if isSuccess status then
    match WireResponse.decode? body with
    | none => .error .unreadable
    | some w => orError .invalidSignature w.signature?
  else
    match ErrorResponse.decode? body with
    | some e => .error (.rejected status e.code e.message)
    | none => .error (.unexpectedStatus status)

/-- Statuses of responses that end an exchange. Others announce a later one, or are no statuses. -/
def isFinal (status : Nat) : Bool := status == 101 || (200 ≤ status && status < 1000)

def isBare (status : Nat) : Bool := status == 101 || status == 204 || status == 304

/-- What became of a request. No response means that the connection broke. -/
def outcome (response : Option (Nat × Bytes)) : Except ClientError Signature :=
  match response with
  | none => .error .http
  | some (status, body) =>
    if isFinal status then read status (if isBare status then [] else body) else .error .http

end Client

end Countersign
