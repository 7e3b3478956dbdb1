import Countersign.Service.Http

/-!
# Request counters

How many well-formed requests came in, how many were answered with a signature, and how many were not
signed. The counters are shown in the text form that monitoring systems collect, sorted by name.
-/

set_option autoImplicit false

namespace Countersign

inductive Counter where
  | received
  | succeeded
  | failed
  deriving DecidableEq, Repr

/-- Where counters have 64 bits, these are their numbers up to 2^64 requests: no request moves one twice. -/
structure Counters where
  received : Nat
  succeeded : Nat
  failed : Nat
  deriving DecidableEq, Repr

namespace Counters

def zero : Counters := ⟨0, 0, 0⟩

def increment (c : Counters) : Counter → Counters
  | .received => { c with received := c.received + 1 }
  | .succeeded => { c with succeeded := c.succeeded + 1 }
  | .failed => { c with failed := c.failed + 1 }

def family (name help : String) (value : Nat) : String :=
  s!"# HELP {name} {help}\n# TYPE {name} counter\n{name} {value}\n"

def text (c : Counters) : String :=
  family "signer_failed_signing_requests"
      "Number of well formed signing requests that were not signed" c.failed ++
    family "signer_received_signing_requests" "Number of well formed signing requests received"
      c.received ++
    family "signer_succeeded_signing_requests"
      "Number of signing requests answered with a signature" c.succeeded

def contentType : String := "text/plain; version=0.0.4"

end Counters

namespace MetricsServer

def path : String := "/metrics"

def handle (c : Counters) (r : HttpRequest) : HttpResponse :=
  if r.path ≠ path then .bare 404
  else
    let page : HttpResponse :=
      { status := 200, contentType := some Counters.contentType, allow := none
        body := Utf8.encode c.text }
    if r.method = "GET" then page
    else if r.method = "HEAD" then { page with body := [] }
    else { HttpResponse.bare 405 with allow := some "GET,HEAD" }

end MetricsServer

end Countersign
