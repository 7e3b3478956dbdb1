import Countersign.Config.Plan
import Countersign.Daemon.Program
import Countersign.Live.Node
import Countersign.Node.Chain
import Countersign.Signing.Wallet
import Std.Async.Signal
import Std.Http.Server

/-!
# Servers over the network

The signing service and its counters, each listening on an address of its own until the process is
interrupted. A request is decided on a thread of its own and given up when its time is over.
-/

set_option autoImplicit false

namespace Countersign.Live

open Std.Async Std.Net

structure Desk where
  plan : ServicePlan
  schedule : Schedule
  counters : IO.Ref Counters
  /-- How many requests are being decided, among them those that were given up. -/
  deciding : IO.Ref Nat

def report (message : String) : IO Unit := do (← IO.getStderr).putStrLn s!"ERROR {message}"

namespace Desk

def inquire (d : Desk) : (q : Inquiry) → IO q.Answer
  | .transaction txid script => converse d.plan.chainNode (Node.inclusion txid script)
  | .tip => converse d.plan.chainNode Node.tip
  | .parameters height => return d.schedule.parametersAt height
  | .signature r => converse d.plan.walletNode (Wallet.sign d.plan.signerType r).run

def serve (d : Desk) : (c : ServiceCall) → IO c.Answer
  | .count c => d.counters.modify fun counters => counters.increment c
  | .report message => Live.report message
  | .inquire q => d.inquire q

end Desk

partial def receiveBody (limit : Nat) (body : Std.Http.Body.Stream) (received : ByteArray) :
    Async ByteArray := do
  if limit < received.size then return received
  match ← body.recv with
  | some chunk => receiveBody limit body (received ++ chunk.data)
  | none => return received

def receiveRequest (limit : Nat) (r : Std.Http.Request Std.Http.Body.Stream) : Async HttpRequest := do
  return {
    method := toString r.line.method
    path := toString r.line.uri.path
    headers := r.line.headers.toList.map fun h => (h.1.value, Utf8.encode h.2.value)
    body := (← receiveBody limit r.body ByteArray.empty).toList }

def addHeader (name : String) (value : Option String) (b : Std.Http.Response.Builder) :
    Std.Http.Response.Builder :=
  ((value.bind fun v => b.header? name v)).getD b

def sendResponse (r : HttpResponse) : Async (Std.Http.Response Std.Http.Body.Any) := do
  let status := (Std.Http.Status.ofCode none r.status.toUInt16).getD .internalServerError
  let head := addHeader "allow" r.allow
    (addHeader "content-type" r.contentType (Std.Http.Response.withStatus status))
  return head.body (.ofBody (← Std.Http.Body.Full.ofByteArray ⟨r.body.toArray⟩))

namespace Desk

def attend (d : Desk) (givenUp : IO.Ref Bool) (c : ServiceCall) : IO c.Answer := do
  if ← givenUp.get then throw (.userError "given up")
  d.serve c

def reach (d : Desk) (givenUp : IO.Ref Bool) (r : HttpRequest) : IO HttpResponse := do
  try (Server.handle d.plan.network d.plan.limits r).run fun c => d.attend givenUp c
  finally d.deciding.modify (· - 1)

/-- Decides on a thread of its own, because asking a node blocks. -/
def decide (d : Desk) (givenUp : IO.Ref Bool) (r : HttpRequest) : Async HttpResponse := do
  d.deciding.modify (· + 1)
  Async.ofAsyncTask (← IO.asTask (d.reach givenUp r) .dedicated)

partial def settle (d : Desk) : IO Unit := do
  if 0 < (← d.deciding.get) then
    IO.sleep 20
    d.settle

def timedOut (d : Desk) : IO HttpResponse := Server.timedOut.run fun c => d.serve c

def sign (d : Desk) (r : Std.Http.Request Std.Http.Body.Stream) : Async HttpResponse := do
  let givenUp ← IO.mkRef false
  let answer := do d.decide givenUp (← receiveRequest d.plan.limits.maxContentLength r)
  match ← within d.plan.timeoutMillis answer with
  | some response => return response
  | none =>
    givenUp.set true
    d.timedOut

def monitor (d : Desk) (r : Std.Http.Request Std.Http.Body.Stream) : Async HttpResponse := do
  return MetricsServer.handle (← d.counters.get) (← receiveRequest 0 r)

end Desk

def address (e : Endpoint) : SocketAddress :=
  match e.address with
  | .v4 a b c d => .v4 ⟨.ofParts a b c d, e.port⟩
  | .v6 groups => .v6 ⟨⟨groups⟩, e.port⟩

def listen (e : Endpoint)
    (answer : Std.Http.Request Std.Http.Body.Stream → Async HttpResponse) : Async Std.Http.Server :=
  Std.Http.Server.serve (address e)
    (Std.Http.Server.Handler.ofFn fun r => ((do sendResponse (← answer r)) :
      Async (Std.Http.Response Std.Http.Body.Any)))
    { serverName := none }

def serve (plan : ServicePlan) (schedule : Schedule) : IO Served := do
  let desk : Desk := ⟨plan, schedule, ← IO.mkRef .zero, ← IO.mkRef 0⟩
  match ← outcome (listen plan.endpoint desk.sign).block with
  | .error why => return .refused why
  | .ok service =>
    let metrics ← outcome (listen plan.metricsEndpoint desk.monitor).block
    let interrupt ← Signal.Waiter.mk .sigint false
    let _ ← (← interrupt.wait).block
    service.shutdownAndWait.block
    let fault? ← match metrics with
      | .ok server => do server.shutdownAndWait.block; pure none
      | .error why => pure (some why)
    desk.settle
    return .stopped fault?

end Countersign.Live
