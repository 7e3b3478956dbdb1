import Countersign.Hash.Hmac
import Countersign.Hex

/-!
# Shared-key authentication

Callers send the hexadecimal HMAC of the raw request body under a shared key. Letters may be written in
either case, and nothing else about the text may vary.
-/

set_option autoImplicit false

namespace Countersign

inductive AuthError where
  | missing
  | invalid
  deriving DecidableEq, Repr

namespace AuthError

def message : AuthError → String
  | .missing => "missing HMAC header"
  | .invalid => "invalid HMAC"

end AuthError

namespace Auth

def header : String := "X-Covenant-HMAC"

def generate (key : String) (body : Bytes) : String := Hex.encode (Hmac.mac (Utf8.encode key) body)

def validate (key : String) (body : Bytes) (provided : Option String) : Except AuthError Unit :=
  match provided with
  | none => .error .missing
  | some p =>
    if p = "" then .error .missing
    else if Hex.decode? p = some (Hmac.mac (Utf8.encode key) body) then .ok ()
    else .error .invalid

end Auth

end Countersign
