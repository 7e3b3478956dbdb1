import Countersign.Bitcoin.Transaction
import Countersign.Json.Writer
import Countersign.Text.Quoted

/-!
# What goes wrong with a node

A node may be out of reach, answer something that is no reply, or refuse the call with an error object
of its own. Its reply may hold a value that cannot be used, and a chain lookup also ends without a
transaction when the node does not know it or has not included it in a block.
-/

set_option autoImplicit false

namespace Countersign

inductive TransportFault where
  | unreachable (reason : String)
  | closed
  | status (code : Nat)
  deriving DecidableEq, Repr

namespace TransportFault

def refused : TransportFault := .unreachable "Connection refused (os error 111)"

def message : TransportFault → String
  | .unreachable reason => s!"Couldn't connect to host: {reason}"
  | .closed => "HTTP response too short: length 0, needed 12."
  | .status code => s!"unexpected HTTP code: {code}"

end TransportFault

inductive RpcError where
  | refused (code : Int32) (message : String) (data : Option Json)
  | returned (text : String)
  | unreadable
  | transport (fault : TransportFault)

namespace RpcError

def dataText : Option Json → String
  | none => "None"
  | some v => s!"Some(RawValue({v.compact}))"

def message : RpcError → String
  | .refused code message data =>
    "JSON-RPC error: RPC error response: RpcError \x7b " ++
      s!"code: {code}, message: {Quoted.text message}, data: {dataText data}" ++ " \x7d"
  | .returned text => s!"the daemon returned an error string: {text}"
  | .unreadable => "JSON-RPC error: JSON decode error"
  | .transport fault => s!"JSON-RPC error: transport error: {fault.message}"

end RpcError

inductive NodeError where
  | rpc (e : RpcError)
  | invalidTransaction (txid : Hash256)
  | invalidPsbt
  | heightOutOfRange (height : UInt64)

namespace NodeError

def message : NodeError → String
  | .rpc e => s!"bitcoind rpc error: {e.message}"
  | .invalidTransaction txid => s!"failed to decode transaction {txid.text}"
  | .invalidPsbt => "wallet returned invalid psbt"
  | .heightOutOfRange height => s!"block height {height} out of range"

end NodeError

inductive ChainError where
  | notFound (txid : Hash256)
  | notInChain (txid : Hash256)
  | node (e : NodeError)
  | task (text : String)

namespace ChainError

def message : ChainError → String
  | .notFound txid => s!"transaction {txid.text} not found"
  | .notInChain txid => s!"transaction {txid.text} is not in chain"
  | .node e => s!"bitcoind request failed: {e.message}"
  | .task text => s!"bitcoind task failed: {text}"

end ChainError

end Countersign
