import Countersign.Daemon.Program
import Countersign.Rehearsal.Files
import Countersign.Rehearsal.Stage

/-!
# Rehearsals of the daemon

A machine keeps files and has one node on it. Addresses in use cannot be listened on, and hosts whose
names hold a NUL byte cannot be looked up. While the daemon serves, a script of requests is sent to it
one after the other, and then it is told to stop.
-/

set_option autoImplicit false

namespace Countersign.Rehearsal

inductive Receiver where
  | service
  | metrics
  deriving DecidableEq, Repr

structure Machine where
  files : Files
  nodeAuthority : String
  node : Node
  busy : List Endpoint
  script : List (Receiver × HttpRequest)
  responses : List HttpResponse
  printed : List String
  reports : List String

namespace Machine

def nodePort : UInt16 := 20000

def nodeEndpoint : Endpoint := ⟨.v4 127 0 0 1, nodePort⟩

def fresh (node : Node) : Machine :=
  { files := .none, nodeAuthority := nodeEndpoint.text, node, busy := [nodeEndpoint], script := []
    responses := [], printed := [], reports := [] }

def addressInUse : String := "Address already in use (os error 98)"

def nodePlace (m : Machine) (a : NodeAccess) : Nat := if a.authority = m.nodeAuthority then 0 else 1

def stage (m : Machine) (plan : ServicePlan) (schedule : Schedule) : Stage :=
  Stage.new (.node (m.nodePlace plan.chainNode)) (.wallet (m.nodePlace plan.walletNode) plan.signerType)
    (.schedule schedule) [m.node]

def answer (plan : ServicePlan) : Receiver × HttpRequest → StateM Stage HttpResponse
  | (.service, r) => Stage.handle plan.network plan.limits r
  | (.metrics, r) => do return MetricsServer.handle (← get).counters r

def listenFault? (busy : List Endpoint) (e : Endpoint) : Option String :=
  if busy.contains e then some addressInUse else none

def serve (plan : ServicePlan) (schedule : Schedule) : StateM Machine Served := do
  let m ← get
  match listenFault? m.busy plan.endpoint with
  | some reason => return .refused reason
  | none =>
    let (responses, s) := (m.script.mapM (answer plan)).run (m.stage plan schedule)
    set { m with responses, node := s.nodes.headD m.node, reports := m.reports ++ s.reports }
    return .stopped (listenFault? (plan.endpoint :: m.busy) plan.metricsEndpoint)

def update (change : Files → Except FileFault Files) : StateM Machine (Except String Unit) := do
  let m ← get
  match change m.files with
  | .error e => return .error e.reason
  | .ok files =>
    set { m with files }
    return .ok ()

def respond : (q : SystemCall) → StateM Machine q.Answer
  | .probe path => do return (← get).files.probe path
  | .readFile path => do return ((← get).files.read path).mapError FileFault.reason
  | .createDirectories path => update fun f => f.createDirectories path
  | .writeFile path content => update fun f => f.write path content
  | .keepPrivate _ => return .ok ()
  | .resolve node =>
    return if node.authority.toList.contains '\x00' then .error FileFault.nulByte.reason else .ok ()
  | .serve plan schedule => serve plan schedule
  | .print line => modify fun m => { m with printed := m.printed ++ [line] }
  | .report message => modify fun m => { m with reports := m.reports ++ [message] }

def run {α : Type} (m : Machine) (d : Dialogue System α) : α × Machine :=
  (d.run fun q => respond q).run m

end Machine

end Countersign.Rehearsal
