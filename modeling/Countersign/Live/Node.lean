import Countersign.Live.Files
import Countersign.Node.Exchange
import Std.Async.DNS
import Std.Async.TCP
import Std.Async.Timer

/-!
# Nodes over the network

Calls to a node over a connection of their own, which has to be made and answered in time.
-/

set_option autoImplicit false

namespace Countersign.Live

open Std.Async Std.Net

def within {α : Type} (millis : Nat) (action : Async α) : Async (Option α) := do
  let timer ← Sleep.mk (Std.Time.Millisecond.Offset.ofNat millis)
  let result ← Async.race (some <$> action) (do timer.wait; return none)
  timer.stop
  return result

def socketAddress (address : IPAddr) (port : UInt16) : SocketAddress :=
  match address with
  | .v4 addr => .v4 ⟨addr, port⟩
  | .v6 addr => .v6 ⟨addr, port⟩

def lookUp : List (String × UInt16) → Async SocketAddress
  | [] => throw (.userError "failed to lookup address information")
  | (host, port) :: rest => do
    if host.toList.contains '\x00' then throw (.userError "file name contained an unexpected NUL byte")
    let found ← try DNS.getAddrInfo host (toString port) catch e =>
      if rest.isEmpty then throw e else pure #[]
    match found[0]? with
    | some address => return socketAddress address port
    | none => lookUp rest

partial def receive (socket : TCP.Socket.Client) (received : ByteArray) : Async ByteArray := do
  match ← socket.recv? 65536 with
  | some more => receive socket (received ++ more)
  | none => return received

def exchange (a : NodeAccess) (c : RpcCall) : Async Bytes := do
  let socket ← TCP.Socket.Client.mk
  socket.connect (← lookUp a.places)
  socket.send ⟨(Rpc.message a c).toArray⟩
  return (← receive socket ByteArray.empty).toList

def patience : Nat := 15000

def call (a : NodeAccess) (c : RpcCall) : IO (Except RpcError Json) := do
  match ← outcome (within patience (exchange a c)).block with
  | .ok (some sent) => return NodeReply.outcome sent
  | .ok none => return .error (.transport (.unreachable "connection timed out"))
  | .error why => return .error (.transport (.unreachable why))

def converse {α : Type} (a : NodeAccess) (d : Dialogue Rpc α) : IO α := d.run fun c => call a c

end Countersign.Live
