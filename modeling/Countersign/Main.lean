import Countersign.Live.Servers

/-!
# The program

The daemon, run against the system it finds itself on.
-/

set_option autoImplicit false

namespace Countersign.Live

def answer : (q : SystemCall) → IO q.Answer
  | .probe path => isPresent path
  | .readFile path => outcome (readFile path)
  | .createDirectories path => outcome (IO.FS.createDirAll path)
  | .writeFile path content => outcome (writeFile path content)
  | .keepPrivate path => outcome (keepPrivate path)
  | .resolve node => outcome (do discard (lookUp node.places).block)
  | .serve plan schedule => serve plan schedule
  | .print line => IO.println line
  | .report message => report message

end Countersign.Live

def main (arguments : List String) : IO UInt32 := do
  let environment ← IO.getEnv "COVENANT_SIGNER_CONFIG"
  let code ← (Countersign.Daemon.main arguments environment).run Countersign.Live.answer
  return code.toUInt32
