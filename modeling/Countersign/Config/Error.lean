import Countersign.Text.Quoted

/-!
# What is wrong with a configuration

The file cannot be read or written, its text is no configuration, or the settings contradict themselves
or each other.
-/

set_option autoImplicit false

namespace Countersign

inductive ConfigSection where
  | server
  | metrics
  deriving DecidableEq, Repr

def ConfigSection.name : ConfigSection → String
  | .server => "server-config"
  | .metrics => "metrics"

inductive ConfigError where
  | io (path reason : String)
  | syntaxFault
  | tooWide
  | unknownNetwork (name : String)
  | networkMismatch (node signer : String)
  | invalidHost (place : ConfigSection) (host : String)
  | invalidMetricsPort (port : UInt32)
  | zeroContentLength
  | zeroRequestTimeout
  deriving DecidableEq, Repr

namespace ConfigError

def message : ConfigError → String
  | .io path reason => s!"failed to access config file {Quoted.text path}: {reason}"
  | .syntaxFault => "failed to parse config"
  | .tooWide => "failed to serialize config: out-of-range value for u64 type"
  | .unknownNetwork name => s!"unknown network {name}"
  | .networkMismatch node signer =>
    s!"btc-config network {node} differs from btc-signer-config network {signer}"
  | .invalidHost place host => s!"invalid {place.name} host: {host}"
  | .invalidMetricsPort port =>
    s!"metrics server port must be between 1024 and 65535 (inclusive), got {port.toNat}"
  | .zeroContentLength => "max-content-length must be greater than 0"
  | .zeroRequestTimeout => "request-timeout must be greater than 0"

end ConfigError

end Countersign
