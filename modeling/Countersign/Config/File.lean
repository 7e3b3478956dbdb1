import Countersign.Config.Error
import Countersign.Config.Settings
import Countersign.Text.Utf8
import Countersign.Toml.Document
import Countersign.Toml.Record
import Countersign.Toml.Writer

/-!
# The configuration file

Each section of the file overlays its defaults with what it writes. Settings are written in full, under a
header that explains the two nodes, and read back as they were.
-/

set_option autoImplicit false

namespace Countersign

open Toml

namespace Settings

def nodeFields : List String := ["host", "user", "pass", "network"]

def nodeOf? (t : Table) (d : NodeSettings) : Option NodeSettings := do
  return {
    access := {
      host := ← t.field? "host" d.access.host Value.string?
      user := ← t.field? "user" d.access.user Value.string?
      pass := ← t.field? "pass" d.access.pass Value.string? }
    network := ← t.field? "network" d.network Value.string? }

def node? (v : Value) : Option NodeSettings := do nodeOf? (← v.record? nodeFields) defaultNode

def signerType? (v : Value) : Option SignerType := v.variant?.bind SignerType.ofText?

def signer? (v : Value) : Option SignerSettings := do
  let t ← v.record? (nodeFields ++ ["signer-type"])
  return {
    node := ← nodeOf? t defaultSigner.node
    type := ← t.field? "signer-type" defaultSigner.type signerType? }

def server? (v : Value) : Option ServerSettings := do
  let d := defaultServer
  let t ← v.record? ["host", "port", "request-timeout", "max-content-length", "hmac-key"]
  return {
    host := ← t.field? "host" d.host Value.string?
    port := ← t.field? "port" d.port Value.u16?
    requestTimeout := ← t.field? "request-timeout" d.requestTimeout Value.u64?
    maxContentLength := ← t.field? "max-content-length" d.maxContentLength Value.u32?
    hmacKey := ← t.field? "hmac-key" d.hmacKey Value.string? }

def metrics? (v : Value) : Option MetricsSettings := do
  let d := defaultMetrics
  let t ← v.record? ["host", "port"]
  return {
    host := ← t.field? "host" d.host Value.string?
    port := ← t.field? "port" d.port Value.u32? }

def ofTable? (t : Table) : Option Settings := do
  return {
    node := ← t.field? "btc-config" defaultNode node?
    signer := ← t.field? "btc-signer-config" defaultSigner signer?
    server := ← t.field? "server-config" defaultServer server?
    metrics := ← t.field? "metrics" defaultMetrics metrics? }

def parse (text : String) : Except ConfigError Settings :=
  match (Toml.parse? text).bind ofTable? with
  | some s => .ok s
  | none => .error .syntaxFault

def nodeEntries (s : NodeSettings) : List (String × Setting) :=
  [("host", .text s.access.host), ("user", .text s.access.user), ("pass", .text s.access.pass),
   ("network", .text s.network)]

def sections (s : Settings) : List Section :=
  [⟨"btc-config", nodeEntries s.node⟩,
   ⟨"btc-signer-config", nodeEntries s.signer.node ++ [("signer-type", .text s.signer.type.text)]⟩,
   ⟨"server-config",
     [("host", .text s.server.host), ("port", .number s.server.port.toNat),
      ("request-timeout", .number s.server.requestTimeout.toNat),
      ("max-content-length", .number s.server.maxContentLength.toNat),
      ("hmac-key", .text s.server.hmacKey)]⟩,
   ⟨"metrics", [("host", .text s.metrics.host), ("port", .number s.metrics.port.toNat)]⟩]

def header : List String :=
  ["# Covenant signer configuration.",
   "#",
   "# [btc-config] points at a synced bitcoind with txindex=1, used for chain",
   "# lookups. [btc-signer-config] points at the wallet-only bitcoind holding the",
   "# covenant key; it should not be reachable from the public network.",
   ""]

def headerChars : List Char := header.flatMap fun line => line.toList ++ ['\n']

/-- The text of a file with these settings, unless an integer is too large for a file. -/
def text (s : Settings) : Except ConfigError String :=
  if s.server.requestTimeout.toNat < Toml.integerBound then
    .ok (String.ofList (headerChars ++ sectionsChars s.sections))
  else .error .tooWide

end Settings

end Countersign
