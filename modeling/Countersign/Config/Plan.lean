import Countersign.Bitcoin.Network
import Countersign.Config.Error
import Countersign.Config.Settings
import Countersign.Net.Address
import Countersign.Service.Server

/-!
# Checked settings

Settings that the service can run with: known networks that agree, limits that let something through, and
addresses to listen on. They are checked in a fixed order.
-/

set_option autoImplicit false

namespace Countersign

namespace Network

def ofName : String → Except ConfigError Network
  | "mainnet" => .ok .main
  | "testnet3" => .ok .testnet
  | "regtest" => .ok .regtest
  | "signet" => .ok .signet
  | name => .error (.unknownNetwork name)

def text : Network → String
  | .main => "bitcoin"
  | .testnet => "testnet"
  | .signet => "signet"
  | .regtest => "regtest"

end Network

structure ServicePlan where
  chainNode : NodeAccess
  walletNode : NodeAccess
  signerType : SignerType
  network : Network
  endpoint : Endpoint
  timeoutMillis : Nat
  limits : ServiceLimits
  metricsEndpoint : Endpoint
  deriving DecidableEq

namespace Settings

def checkNetworks (s : Settings) : Except ConfigError Network := do
  let node ← Network.ofName s.node.network
  let signer ← Network.ofName s.signer.node.network
  if node = signer then return node
  else throw (.networkMismatch s.node.network s.signer.node.network)

def checkHost (place : ConfigSection) (host : String) : Except ConfigError IpAddress :=
  match IpAddress.parse? host with
  | some address => .ok address
  | none => .error (.invalidHost place host)

def checkMetricsPort (port : UInt32) : Except ConfigError UInt16 :=
  if 1024 ≤ port.toNat ∧ port.toNat < UInt16.size then .ok port.toUInt16
  else .error (.invalidMetricsPort port)

def check (s : Settings) : Except ConfigError ServicePlan := do
  let network ← s.checkNetworks
  if s.server.maxContentLength = 0 then throw .zeroContentLength
  if s.server.requestTimeout = 0 then throw .zeroRequestTimeout
  let address ← checkHost .server s.server.host
  let metricsPort ← checkMetricsPort s.metrics.port
  let metricsAddress ← checkHost .metrics s.metrics.host
  return {
    chainNode := s.node.access
    walletNode := s.signer.node.access
    signerType := s.signer.type
    network
    endpoint := ⟨address, s.server.port⟩
    timeoutMillis := s.server.requestTimeout.toNat * 1000
    limits := {
      maxContentLength := s.server.maxContentLength.toNat
      hmacKey := if s.server.hmacKey = "" then none else some s.server.hmacKey }
    metricsEndpoint := ⟨metricsAddress, metricsPort⟩ }

end Settings

end Countersign
