import Countersign.Text.Utf8

/-!
# HTTP messages

Requests and responses as the service sees them. Header names are compared without regard to case, the
first of several headers of one name counts, and a value that is not visible text counts as absent.
-/

set_option autoImplicit false

namespace Countersign

structure HttpRequest where
  method : String
  /-- The path of the request target, without its query. -/
  path : String
  headers : List (String × Bytes)
  body : Bytes
  deriving DecidableEq

structure HttpResponse where
  status : Nat
  contentType : Option String
  allow : Option String
  body : Bytes
  deriving DecidableEq

namespace HttpRequest

def isVisible (b : UInt8) : Bool := (0x20 ≤ b && b < 0x7f) || b == 0x09

def lower (s : String) : String := String.ofList (s.toList.map Char.toLower)

def header? (r : HttpRequest) (name : String) : Option String := do
  let (_, value) ← r.headers.find? fun h => lower h.1 == lower name
  if value.all isVisible then Utf8.decode? value else none

end HttpRequest

namespace HttpResponse

def bare (status : Nat) : HttpResponse := { status, contentType := none, allow := none, body := [] }

def json (status : Nat) (body : Bytes) : HttpResponse :=
  { status, contentType := some "application/json", allow := none, body }

end HttpResponse

namespace Http

def maxU64 : Nat := UInt64.size - 1

/-- Decimal digits after an optional plus sign, up to 2 ^ 64 - 1. -/
def declaredLength? (s : String) : Option Nat :=
  let cs := match s.toList with
    | '+' :: r => r
    | r => r
  if !cs.isEmpty && cs.all Char.isDigit then
    let n := cs.foldl (fun n c => n * 10 + (c.toNat - 48)) 0
    if n ≤ maxU64 then some n else none
  else none

end Http

end Countersign
