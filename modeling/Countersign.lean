import Countersign.Bitcoin.Amount
import Countersign.Bitcoin.Decoder
import Countersign.Bitcoin.Network
import Countersign.Bitcoin.Script
import Countersign.Bitcoin.Sighash
import Countersign.Bitcoin.Taproot
import Countersign.Bitcoin.Transaction
import Countersign.Bytes
import Countersign.Config.Error
import Countersign.Config.File
import Countersign.Config.Plan
import Countersign.Config.Settings
import Countersign.Curve.Group
import Countersign.Curve.Key
import Countersign.Curve.Schnorr
import Countersign.Daemon.CommandLine
import Countersign.Daemon.Program
import Countersign.Dialogue
import Countersign.Hash.Hmac
import Countersign.Hash.Ripemd160
import Countersign.Hash.Sha256
import Countersign.Hex
import Countersign.Json.Number
import Countersign.Json.Reader
import Countersign.Json.Record
import Countersign.Json.Value
import Countersign.Json.Writer
import Countersign.Live.Files
import Countersign.Live.Node
import Countersign.Live.Servers
import Countersign.Main
import Countersign.Net.Address
import Countersign.Net.Url
import Countersign.Node.Access
import Countersign.Node.Chain
import Countersign.Node.Error
import Countersign.Node.Exchange
import Countersign.Node.Result
import Countersign.Node.Rpc
import Countersign.Params.Entry
import Countersign.Params.Parameters
import Countersign.Params.Schedule
import Countersign.Policy.Engine
import Countersign.Policy.Error
import Countersign.Proofs.Bitcoin.Hashing
import Countersign.Proofs.Bitcoin.ScriptTrees
import Countersign.Proofs.Bytes
import Countersign.Proofs.Curve.Keys
import Countersign.Proofs.Curve.Points
import Countersign.Proofs.Curve.Primality
import Countersign.Proofs.Curve.Signing
import Countersign.Proofs.Outcome
import Countersign.Proofs.Params.Validity
import Countersign.Proofs.Policy.Approval
import Countersign.Proofs.Policy.Asking
import Countersign.Proofs.Policy.Conflict
import Countersign.Proofs.Policy.HonestStake
import Countersign.Proofs.Policy.Judgement
import Countersign.Proofs.Staking.Announcing
import Countersign.Proofs.Staking.Binding
import Countersign.Proofs.Staking.Building
import Countersign.Proofs.Staking.Committees
import Countersign.Proofs.Staking.Keys
import Countersign.Proofs.Staking.Locking
import Countersign.Proofs.Staking.Recognition
import Countersign.Proofs.Staking.Transfer
import Countersign.Proofs.Tapscript.Committee
import Countersign.Proofs.Tapscript.Machine
import Countersign.Proofs.Tapscript.Number
import Countersign.Proofs.Tapscript.Reading
import Countersign.Proofs.Tapscript.Spending
import Countersign.Psbt.Der
import Countersign.Psbt.Entry
import Countersign.Psbt.Field
import Countersign.Psbt.Packet
import Countersign.Psbt.TreeForm
import Countersign.Rehearsal.Files
import Countersign.Rehearsal.Machine
import Countersign.Rehearsal.Node
import Countersign.Rehearsal.Stage
import Countersign.Service.Auth
import Countersign.Service.Client
import Countersign.Service.Http
import Countersign.Service.Metrics
import Countersign.Service.Server
import Countersign.Service.Target
import Countersign.Service.Wire
import Countersign.Signing.Packet
import Countersign.Signing.Request
import Countersign.Signing.SecretKey
import Countersign.Signing.Wallet
import Countersign.Staking.Announcement
import Countersign.Staking.Error
import Countersign.Staking.Leaves
import Countersign.Staking.LockedOutput
import Countersign.Staking.Spend
import Countersign.Staking.Stake
import Countersign.Text.Base58
import Countersign.Text.Base64
import Countersign.Text.Bech32
import Countersign.Text.Decimal
import Countersign.Text.Parts
import Countersign.Text.Printable
import Countersign.Text.Quoted
import Countersign.Text.Utf8
import Countersign.Text.Wrapped
import Countersign.Toml.Document
import Countersign.Toml.Record
import Countersign.Toml.Scalar
import Countersign.Toml.Statement
import Countersign.Toml.Text
import Countersign.Toml.Value
import Countersign.Toml.Writer
import Countersign.Proofs.Staking.Recogniser
import Countersign.Proofs.Policy.Attribution
import Countersign.Proofs.Signing.SameMessage
import Countersign.Proofs.FirstFailure
import Countersign.Proofs.Policy.FailFast
import Countersign.Proofs.Bitcoin.Decoding
import Countersign.Proofs.Bitcoin.Transactions
import Countersign.Proofs.Hex
import Countersign.Proofs.Service.WireCodec
import Countersign.Proofs.Node.Lookup
import Countersign.Proofs.Policy.NamedScript
import Countersign.Proofs.Json.Records
import Countersign.Proofs.Service.Accounting
import Countersign.Proofs.Staking.Carrying
import Countersign.Proofs.Node.Classification
import Countersign.Proofs.Service.Agreement
import Countersign.Proofs.Staking.Revealing
import Countersign.Proofs.Staking.Refusing
import Countersign.Proofs.Policy.Relisting
import Countersign.Proofs.Config.Writing
import Countersign.Proofs.Staking.Commitment
import Countersign.Proofs.Params.Acceptance
import Countersign.Proofs.Params.Succession
import Countersign.Proofs.Params.Membership
import Countersign.Proofs.Psbt.LeafSignatures
import Countersign.Proofs.Signing.ExportedKeys
import Countersign.Proofs.Staking.AnnouncementCodec
import Countersign.Proofs.Base64
import Countersign.Proofs.Service.Authentication
import Countersign.Proofs.Signing.ProcessedPackets
import Countersign.Proofs.Signing.Wallets
import Countersign.Proofs.Config.Overlay
