import Countersign.Json.Reader
import Countersign.Json.Record
import Countersign.Json.Writer
import Countersign.Policy.Engine

/-!
# The wire format

Requests and responses are JSON records whose binary fields are hexadecimal text. A request is decoded
field by field in a fixed order and the first bad field is named.
-/

set_option autoImplicit false

namespace Countersign

inductive WireError where
  | invalidPayload
  | invalidScript
  | invalidCovenantKey
  | invalidTransaction
  | invalidSignature
  deriving DecidableEq, Repr

namespace WireError

def message : WireError → String
  | .invalidPayload => "invalid request payload"
  | .invalidScript => "invalid staking output pk script"
  | .invalidCovenantKey => "invalid covenant public key"
  | .invalidTransaction => "invalid unbonding transaction"
  | .invalidSignature => "invalid staker unbonding signature"

end WireError

structure WireRequest where
  stakingScript : String
  transaction : String
  stakerSignature : String
  covenantKey : String
  deriving DecidableEq

def orError {ε α : Type} (e : ε) : Option α → Except ε α
  | some a => .ok a
  | none => .error e

namespace WireRequest

def ofRequest (r : UnbondingRequest) : WireRequest :=
  { stakingScript := Hex.encode r.stakingScript
    transaction := r.transaction.text
    stakerSignature := Hex.encode r.stakerSignature.bytes
    covenantKey := Hex.encode r.covenantKey.bytes }

def compressedKey? (b : Bytes) : Option PublicKey :=
  if b.length = 33 then PublicKey.ofBytes? b else none

def parse (w : WireRequest) : Except WireError UnbondingRequest := do
  let stakingScript ← orError .invalidScript (Hex.decode? w.stakingScript)
  let covenantKey ←
    orError .invalidCovenantKey ((Hex.decode? w.covenantKey).bind compressedKey?)
  let transaction ← orError .invalidTransaction (Transaction.ofText? w.transaction)
  let stakerSignature ←
    orError .invalidSignature ((Hex.decode? w.stakerSignature).bind Signature.ofBytes?)
  return { stakingScript, transaction, stakerSignature, covenantKey }

def fields : List String :=
  ["staking_output_pk_script_hex", "unbonding_tx_hex", "staker_unbonding_sig_hex",
   "covenant_public_key"]

def toJson (w : WireRequest) : Json :=
  Json.ofMembers (fields.zip
    [Json.ofText w.stakingScript, Json.ofText w.transaction, Json.ofText w.stakerSignature,
     Json.ofText w.covenantKey])

def ofJson? (v : Json) : Option WireRequest := do
  let r ← v.record? fields
  return {
    stakingScript := ← r.required "staking_output_pk_script_hex" Json.text?
    transaction := ← r.required "unbonding_tx_hex" Json.text?
    stakerSignature := ← r.required "staker_unbonding_sig_hex" Json.text?
    covenantKey := ← r.required "covenant_public_key" Json.text? }

def encode (w : WireRequest) : Bytes := w.toJson.encode

def decode (body : Bytes) : Except WireError WireRequest :=
  orError .invalidPayload ((Json.ofBytes? body).bind ofJson?)

end WireRequest

structure WireResponse where
  signature : String
  deriving DecidableEq

namespace WireResponse

def ofSignature (s : Signature) : WireResponse := ⟨Hex.encode s.bytes⟩

def signature? (w : WireResponse) : Option Signature :=
  (Hex.decode? w.signature).bind Signature.ofBytes?

def toJson (w : WireResponse) : Json :=
  Json.ofMembers [("data", Json.ofMembers [("signature_hex", Json.ofText w.signature)])]

def ofJson? (v : Json) : Option WireResponse := do
  let data ← (← v.record? ["data"]).required "data" fun d => d.record? ["signature_hex"]
  return ⟨← data.required "signature_hex" Json.text?⟩

def encode (w : WireResponse) : Bytes := w.toJson.encode

def decode? (body : Bytes) : Option WireResponse := (Json.ofBytes? body).bind ofJson?

end WireResponse

inductive ErrorCode where
  | badRequest
  | internalServiceError
  | unauthorized
  | requestTooLarge
  deriving DecidableEq, Repr

namespace ErrorCode

def text : ErrorCode → String
  | .badRequest => "BAD_REQUEST"
  | .internalServiceError => "INTERNAL_SERVICE_ERROR"
  | .unauthorized => "UNAUTHORIZED"
  | .requestTooLarge => "REQUEST_TOO_LARGE"

def name : ErrorCode → String
  | .badRequest => "BadRequest"
  | .internalServiceError => "InternalServiceError"
  | .unauthorized => "Unauthorized"
  | .requestTooLarge => "RequestTooLarge"

def ofJson? (v : Json) : Option ErrorCode := do
  let name ← v.variant?
  [badRequest, internalServiceError, unauthorized, requestTooLarge].find?
    fun c => Utf8.encode c.text == name

end ErrorCode

structure ErrorResponse where
  code : ErrorCode
  message : String
  deriving DecidableEq

namespace ErrorResponse

def toJson (e : ErrorResponse) : Json :=
  Json.ofMembers [("errorCode", Json.ofText e.code.text), ("message", Json.ofText e.message)]

def ofJson? (v : Json) : Option ErrorResponse := do
  let r ← v.record? ["errorCode", "message"]
  return { code := ← r.required "errorCode" ErrorCode.ofJson?
           message := ← r.required "message" Json.text? }

def encode (e : ErrorResponse) : Bytes := e.toJson.encode

def decode? (body : Bytes) : Option ErrorResponse := (Json.ofBytes? body).bind ofJson?

end ErrorResponse

end Countersign
