import Countersign.Node.Rpc

/-!
# Rehearsed nodes

A rehearsed node has a list of replies for each method and gives them in turn, the last one for ever.
It writes down the calls that it answers, and not those whose connection it closes.
-/

set_option autoImplicit false

namespace Countersign.Rehearsal

inductive NodeReply where
  | http (status : Nat) (body : Bytes)
  | dropped

namespace NodeReply

def object (result error : Json) : NodeReply :=
  .http 200 (Json.encode (Json.ofMembers [("result", result), ("error", error), ("id", .null)]))

def refusal (code : Int) (message : String) : NodeReply :=
  object .null (Json.ofMembers [("code", .integer code), ("message", Json.ofText message)])

def unknownMethod : NodeReply := refusal (-32601) "Method not found"

end NodeReply

structure Node where
  replies : List (String × List NodeReply)
  calls : List RpcCall

namespace Node

def ofReplies (replies : List (String × List NodeReply)) : Node := ⟨replies, []⟩

def take (method : String) : List (String × List NodeReply) →
    NodeReply × List (String × List NodeReply)
  | [] => (.unknownMethod, [])
  | (m, rs) :: rest =>
    if m = method then
      match rs with
      | [] => (.unknownMethod, (m, rs) :: rest)
      | [r] => (r, (m, rs) :: rest)
      | r :: later => (r, (m, later) :: rest)
    else
      let (r, rest) := take method rest
      (r, (m, rs) :: rest)

def answer (c : RpcCall) : StateM Node (Except RpcError Json) := do
  let n ← get
  let (reply, replies) := take c.method n.replies
  match reply with
  | .dropped =>
    set { n with replies }
    return .error (.transport .closed)
  | .http status body =>
    set { n with replies, calls := n.calls ++ [c] }
    return Rpc.ofHttp status body

end Node

end Countersign.Rehearsal
