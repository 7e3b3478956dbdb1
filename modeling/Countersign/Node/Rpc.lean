import Countersign.Dialogue
import Countersign.Json.Number
import Countersign.Json.Reader
import Countersign.Json.Record
import Countersign.Node.Error

/-!
# Calls to a node

A call names a method and its arguments and comes back with a value or an error. Over HTTP the reply is
an object with a result, an error and an id. The status is only looked at when the body is no such
object, except that a refused login is never read.
-/

set_option autoImplicit false

namespace Countersign

structure RpcCall where
  method : String
  params : List Json

def Rpc : Interface := ⟨RpcCall, fun _ => Except RpcError Json⟩

namespace Rpc

def isPlain : Nat → Json → Bool
  | 0, _ => false
  | k + 1, v =>
    match v with
    | .decimal literal => Decimal.fitsFloat literal
    | .integer n => Json.isFloat (.integer n)
    | .string content => Json.isText content
    | .array items => items.all (isPlain k)
    | .object members => members.all fun m => Json.isText m.1 && isPlain k m.2
    | _ => true

def maxDepth : Nat := 128

def refusal? (v : Json) : Option RpcError := do
  let r ← v.record? ["code", "message", "data"]
  return .refused (← r.required "code" Json.i32?) (← r.required "message" Json.text?)
    (← r.optional "data" some)

def reply? (v : Json) : Option (Except RpcError Json) := do
  let r ← v.record? ["result", "error", "id", "jsonrpc"]
  let id ← r.get? "id"
  if !isPlain maxDepth id then failure
  let _ ← r.optional "jsonrpc" Json.text?
  match ← r.optional "error" refusal? with
  | some e => return .error e
  | none => return .ok ((r.get? "result").getD .null)

def ofHttp (status : Nat) (body : Bytes) : Except RpcError Json :=
  if status = 401 then .error (.transport (.status status))
  else
    match (Json.ofBytes? body).bind reply? with
    | some answer => answer
    | none => .error (if status = 200 then .unreadable else .transport (.status status))

def call {α : Type} (method : String) (params : List Json) (read : Json → Option α) :
    ExceptT NodeError (Dialogue Rpc) α :=
  ExceptT.mk (.ask ⟨method, params⟩ fun answer =>
    .done (match answer with
      | .error e => .error (.rpc e)
      | .ok v =>
        match read v with
        | some a => .ok a
        | none => .error (.rpc .unreadable)))

end Rpc

end Countersign
