import Countersign.Json.Writer
import Countersign.Net.Address
import Countersign.Node.Access
import Countersign.Node.Rpc
import Countersign.Service.Http
import Countersign.Text.Base64

/-!
# Exchanges with a node

A call is posted as an object with its method, arguments and an id, under the node's login. The reply is
everything the node sends until it closes the connection: a status, header lines, and a body that is cut
where its declared length ends.
-/

set_option autoImplicit false

namespace Countersign

namespace NodeAccess

def defaultPort (a : NodeAccess) : UInt16 := if a.url.startsWith "https://" then 443 else 80

def path (a : NodeAccess) : String :=
  let rest := ((Url.afterScheme? a.url.toList).getD []).dropWhile (· != '/')
  if rest = [] then "/" else String.ofList rest

def login (a : NodeAccess) : String := "Basic " ++ Base64.encode (Utf8.encode s!"{a.user}:{a.pass}")

def port? (s : List Char) : Option UInt16 :=
  if !s.isEmpty && s.all Char.isDigit && IpAddress.decimal s < UInt16.size then
    some (UInt16.ofNat (IpAddress.decimal s))
  else none

def unbracketed (host : List Char) : String :=
  match host with
  | '[' :: r => String.ofList (if r.getLast? = some ']' then r.dropLast else r)
  | r => String.ofList r

/-- The hosts and ports to look up, until one of them is found: with the port that the authority ends in,
and with the default port. -/
def places (a : NodeAccess) : List (String × UInt16) :=
  let parts := Parts.split ':' a.authority.toList
  let named := do
    let port ← port? (← parts.getLast?)
    return (unbracketed ([':'].intercalate parts.dropLast), port)
  named.toList ++ [(unbracketed a.authority.toList, a.defaultPort)]

end NodeAccess

namespace Rpc

def body (c : RpcCall) : Bytes :=
  (Json.ofMembers [("method", Json.ofText c.method), ("params", .array c.params), ("id", .integer 0),
    ("jsonrpc", Json.ofText "2.0")]).encode

def message (a : NodeAccess) (c : RpcCall) : Bytes :=
  let content := body c
  let head := [s!"POST {a.path} HTTP/1.1", s!"Host: {a.authority}", "Connection: close",
    "Content-Type: application/json", s!"Content-Length: {content.length}", s!"Authorization: {a.login}"]
  Utf8.encode (String.join (head.map (· ++ "\r\n")) ++ "\r\n") ++ content

end Rpc

structure NodeReply where
  status : Nat
  body : Bytes
  deriving DecidableEq

namespace NodeReply

def cut? : Bytes → Option (List Bytes × Bytes)
  | 0x0d :: 0x0a :: r =>
    match r with
    | 0x0d :: 0x0a :: rest => some ([[]], rest)
    | _ => (cut? r).map fun (lines, rest) => ([] :: lines, rest)
  | b :: r =>
    (cut? r).map fun (lines, rest) =>
      match lines with
      | line :: more => ((b :: line) :: more, rest)
      | [] => ([[b]], rest)
  | [] => none

def status? (line : String) : Option Nat :=
  match line.splitOn " " with
  | version :: code :: _ =>
    if version.startsWith "HTTP/1." && code.length = 3 && code.all Char.isDigit then code.toNat? else none
  | _ => none

def declared? (line : String) : Option Nat :=
  match Parts.split ':' line.toList with
  | [name, value] =>
    if HttpRequest.lower (String.ofList name) = "content-length" then
      Http.declaredLength? (String.ofList (value.dropWhile (· == ' ')))
    else none
  | _ => none

def ofBytes? (b : Bytes) : Option NodeReply := do
  let (lines, rest) ← cut? b
  let texts := lines.filterMap Utf8.decode?
  let status ← status? (← texts.head?)
  let length := ((texts.drop 1).findSome? declared?).getD rest.length
  return { status, body := rest.take length }

def outcome (sent : Bytes) : Except RpcError Json :=
  match ofBytes? sent with
  | some reply => Rpc.ofHttp reply.status reply.body
  | none => .error (.transport .closed)

end NodeReply

end Countersign
