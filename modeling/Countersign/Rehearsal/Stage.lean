import Countersign.Node.Chain
import Countersign.Params.Schedule
import Countersign.Rehearsal.Node
import Countersign.Service.Server
import Countersign.Signing.Wallet

/-!
# Rehearsals of the service

A stage stands in for everyone the service consults: a chain, a signer and parameters, each either a
table of fixed answers or the real logic over a rehearsed node. It counts and keeps what was asked. A
signer may never answer at all, which ends the rehearsal of that request.
-/

set_option autoImplicit false

namespace Countersign.Rehearsal

/-- A chain known in advance. A tip that is not there cannot be fetched. -/
structure ChainTable where
  included : List (Hash256 × Inclusion)
  mempool : List Hash256
  failing : Bool
  tips : List (Option UInt32)

/-- Nodes are named by their place on the stage. -/
inductive Chain where
  | node (place : Nat)
  | table (t : ChainTable)

inductive Signer where
  | wallet (place : Nat) (type : SignerType)
  | fixed (signature : Signature)
  | failing (e : BackendError)
  | silent
  | secrets (keys : List SecretKey)

inductive ParamsSource where
  | schedule (s : Schedule)
  | always (p : Parameters)

structure Stage where
  chain : Chain
  signer : Signer
  params : ParamsSource
  nodes : List Node
  lookups : List (Hash256 × Script)
  tipLookups : Nat
  signed : List SigningRequest
  counters : Counters
  reports : List String

def refusedConnection : String := "connection refused"

/-- The first of several answers, of which the last is given for ever. -/
def advance {α : Type} : List α → List α
  | _ :: b :: r => b :: r
  | l => l

namespace ChainTable

def lookUp (t : ChainTable) (txid : Hash256) : Except ChainError Inclusion :=
  if t.failing then .error (.node (.rpc (.returned refusedConnection)))
  else
    match t.included.reverse.lookup txid with
    | some inclusion => .ok inclusion
    | none =>
      if t.mempool.contains txid then .error (.notInChain txid) else .error (.notFound txid)

def tip (t : ChainTable) : Except ChainError UInt32 :=
  match t.tips with
  | some height :: _ => .ok height
  | _ => .error (.task refusedConnection)

end ChainTable

namespace Stage

def new (chain : Chain) (signer : Signer) (params : ParamsSource) (nodes : List Node) : Stage :=
  { chain, signer, params, nodes, lookups := [], tipLookups := 0, signed := [], counters := .zero
    reports := [] }

def callNode (place : Nat) (c : RpcCall) : StateM Stage (Except RpcError Json) := do
  let s ← get
  match s.nodes[place]? with
  | none => return .error (.transport .refused)
  | some n =>
    let (answer, n) := (Node.answer c).run n
    set { s with nodes := s.nodes.set place n }
    return answer

def converse {α : Type} (place : Nat) (d : Dialogue Rpc α) : StateM Stage α :=
  d.run fun c => callNode place c

def lookUp (txid : Hash256) (script : Script) : StateM Stage (Except ChainError Inclusion) := do
  modify fun s => { s with lookups := s.lookups ++ [(txid, script)] }
  match (← get).chain with
  | .node place => converse place (Countersign.Node.inclusion txid script)
  | .table t => return t.lookUp txid

def tip : StateM Stage (Except ChainError UInt32) := do
  modify fun s => { s with tipLookups := s.tipLookups + 1 }
  match (← get).chain with
  | .node place => converse place Countersign.Node.tip
  | .table t =>
    modify fun s => { s with chain := .table { t with tips := advance t.tips } }
    return t.tip

def parameters (height : UInt64) : StateM Stage (Except ParamsError Parameters) := do
  match (← get).params with
  | .schedule s => return s.parametersAt height
  | .always p => return .ok p

def sign (r : SigningRequest) : OptionT (StateM Stage) (Except BackendError Signature) := do
  modify fun s => { s with signed := s.signed ++ [r] }
  match (← get).signer with
  | .wallet place type => converse place (Wallet.sign type r).run
  | .fixed signature => return .ok signature
  | .failing e => return .error e
  | .silent => failure
  | .secrets keys =>
    modify fun s => { s with signer := .secrets (advance keys) }
    match keys with
    | key :: _ => return (r.signErasing key).1
    | [] => failure

def inquire : (q : Inquiry) → OptionT (StateM Stage) q.Answer
  | .transaction txid script => lookUp txid script
  | .tip => tip
  | .parameters height => parameters height
  | .signature r => sign r

def serve : (c : ServiceCall) → OptionT (StateM Stage) c.Answer
  | .count c => modify fun s => { s with counters := s.counters.increment c }
  | .report message => modify fun s => { s with reports := s.reports ++ [message] }
  | .inquire q => inquire q

def decide (network : Network) (r : UnbondingRequest) :
    OptionT (StateM Stage) (Except PolicyError Signature) :=
  (Policy.sign network r).run.run inquire

/-- A request whose handling never ends is answered when its time is up. -/
def handle (network : Network) (limits : ServiceLimits) (r : HttpRequest) :
    StateM Stage HttpResponse := do
  match ← ((Server.handle network limits r).run serve).run with
  | some answer => return answer
  | none => return (← (Server.timedOut.run serve).run).getD (.bare 500)

end Stage

end Countersign.Rehearsal
