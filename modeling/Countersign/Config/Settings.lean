import Countersign.Node.Access
import Countersign.Signing.Wallet

/-!
# Settings

What the configuration file sets: two nodes, the service and its metrics. Every setting has a default,
and the wallet's section takes its own, whatever the chain node's section says.
-/

set_option autoImplicit false

namespace Countersign

structure NodeSettings where
  access : NodeAccess
  network : String
  deriving DecidableEq, Repr

structure SignerSettings where
  node : NodeSettings
  type : SignerType
  deriving DecidableEq, Repr

structure ServerSettings where
  host : String
  port : UInt16
  /-- Seconds. -/
  requestTimeout : UInt64
  /-- Bytes. -/
  maxContentLength : UInt32
  /-- Requests are not authenticated if this is empty. -/
  hmacKey : String
  deriving DecidableEq, Repr

structure MetricsSettings where
  host : String
  port : UInt32
  deriving DecidableEq, Repr

structure Settings where
  node : NodeSettings
  signer : SignerSettings
  server : ServerSettings
  metrics : MetricsSettings
  deriving DecidableEq, Repr

namespace Settings

def defaultNode : NodeSettings :=
  { access := { host := "localhost:18556", user := "user", pass := "pass" }, network := "regtest" }

def defaultSigner : SignerSettings := { node := defaultNode, type := .psbt }

def defaultServer : ServerSettings :=
  { host := "127.0.0.1", port := 9791, requestTimeout := 15, maxContentLength := 8192, hmacKey := "" }

def defaultMetrics : MetricsSettings := { host := "127.0.0.1", port := 2112 }

def default : Settings :=
  { node := defaultNode, signer := defaultSigner, server := defaultServer, metrics := defaultMetrics }

end Settings

end Countersign
