import Countersign.Config.File
import Countersign.Config.Plan
import Countersign.Daemon.CommandLine
import Countersign.Dialogue
import Countersign.Params.Entry

/-!
# The daemon

The program runs against a system that keeps files, looks up hosts and carries the two servers. It either
writes a configuration for a start, or loads and checks everything and serves until it is told to stop.
The first thing that goes wrong is reported and ends it.
-/

set_option autoImplicit false

namespace Countersign

/-- How serving ended: the service may never have listened, which ends its metrics too. -/
inductive Served where
  | refused (reason : String)
  | stopped (metricsFault : Option String)
  deriving DecidableEq, Repr

inductive SystemCall where
  | probe (path : String)
  | readFile (path : String)
  | createDirectories (path : String)
  | writeFile (path : String) (content : Bytes)
  | keepPrivate (path : String)
  | resolve (node : NodeAccess)
  | serve (plan : ServicePlan) (schedule : Schedule)
  | print (line : String)
  | report (message : String)

def SystemCall.Answer : SystemCall → Type
  | .probe _ => Bool
  | .readFile _ => Except String Bytes
  | .createDirectories _ => Except String Unit
  | .writeFile .. => Except String Unit
  | .keepPrivate _ => Except String Unit
  | .resolve _ => Except String Unit
  | .serve .. => Served
  | .print _ => Unit
  | .report _ => Unit

def System : Interface := ⟨SystemCall, SystemCall.Answer⟩

def ServerFault.message (reason : String) : String := s!"IO error: {reason}"

inductive DaemonError where
  | writeConfig (e : ConfigError)
  | loadConfig (e : ConfigError)
  | loadParams (e : ParamsError)
  | chainClient (e : NodeError)
  | walletClient (e : NodeError)
  | listen (reason : String)

namespace DaemonError

def message : DaemonError → String
  | .writeConfig e => s!"Failed to write config: {e.message}"
  | .loadConfig e => s!"Failed to load config: {e.message}"
  | .loadParams e => s!"Failed to load global params: {e.message}"
  | .chainClient e => s!"Failed to create btc node client: {e.message}"
  | .walletClient e => s!"Failed to create btc signer client: {e.message}"
  | .listen reason => s!"Server error: {ServerFault.message reason}"

end DaemonError

def pathParts (path : String) : List String :=
  ((Parts.split '/' path.toList).filter fun part => part ≠ [] ∧ part ≠ ['.']).map String.ofList

def parentPath? (path : String) : Option String :=
  match (pathParts path).dropLast with
  | [] => none
  | parts => some ((if path.startsWith "/" then "/" else "") ++ "/".intercalate parts)

namespace Daemon

abbrev Step := ExceptT DaemonError (Dialogue System)

def settle {ε α : Type} (wrap : ε → DaemonError) (e : Except ε α) : Step α :=
  ExceptT.mk (.done (e.mapError wrap))

def ask (q : SystemCall) : Step q.Answer := ExceptT.mk (.ask q fun a => .done (.ok a))

def attempt {α : Type} (q : SystemCall) (outcome : q.Answer → Except String α)
    (wrap : String → DaemonError) : Step α := do
  settle wrap (outcome (← ask q))

/-- Writes the default configuration unless there is something at the path already. -/
def writeDefault (path : String) : Step Bool := do
  let fault := fun reason => DaemonError.writeConfig (.io path reason)
  let taken : Bool ← ask (.probe path)
  if taken then return false
  match parentPath? path with
  | some parent => attempt (.createDirectories parent) id fault
  | none => pure ()
  let text ← settle .writeConfig Settings.default.text
  attempt (.writeFile path (Utf8.encode text)) id fault
  attempt (.keepPrivate path) id fault
  return true

def notText : String := "stream did not contain valid UTF-8"

def readText (path : String) (wrap : String → DaemonError) : Step String := do
  let content ← attempt (.readFile path) id wrap
  match Utf8.decode? content with
  | some text => return text
  | none => settle wrap (.error notText)

def loadPlan (path : String) : Step ServicePlan := do
  let text ← readText path fun reason => .loadConfig (.io path reason)
  settle .loadConfig (Settings.parse text >>= Settings.check)

def loadSchedule (path : String) : Step Schedule := do
  let text ← readText path fun reason => .loadParams (.io path reason)
  settle .loadParams (Schedule.parse text)

def resolve (a : NodeAccess) (wrap : NodeError → DaemonError) : Step Unit :=
  attempt (.resolve a) id fun reason => wrap (.unresolved reason)

/-- Loads and checks everything in a fixed order, and serves. -/
def start (o : DaemonOptions) : Step (Option String) := do
  let plan ← loadPlan o.config
  let schedule ← loadSchedule o.params
  resolve plan.chainNode .chainClient
  resolve plan.walletNode .walletClient
  match ← ask (.serve plan schedule) with
  | .refused reason => settle id (.error (.listen reason))
  | .stopped metricsFault => return metricsFault

def report (message : String) : Dialogue System Unit := Dialogue.ask (.report message) Dialogue.done

def print : List String → Dialogue System Unit
  | [] => .done ()
  | line :: rest => .ask (.print line) fun _ => print rest

def run (o : DaemonOptions) : Command → Dialogue System Nat
  | .dumpConfig => do
    match ← (writeDefault o.config).run with
    | .ok _ => return 0
    | .error e => report e.message; return 1
  | .start => do
    match ← (start o).run with
    | .ok none => return 0
    | .ok (some reason) => report s!"Metrics server error: {reason}"; return 0
    | .error e => report e.message; return 1

def versionLine : String := "covenant-signer 0.1.0"

def main (arguments : List String) (environment : Option String) : Dialogue System Nat :=
  match Invocation.parse arguments environment with
  | .run options command => run options command
  | .version => do print [versionLine]; return 0
  | .help topic => do print (topic.lines environment); return 0
  | .misuse => return 2

end Daemon

end Countersign
