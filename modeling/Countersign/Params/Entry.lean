import Countersign.Json.Reader
import Countersign.Json.Record
import Countersign.Params.Schedule

/-!
# The parameters file

The file lists versions with wide numbers and hexadecimal keys. Every entry is judged on its own first,
field by field in a fixed order, and only then are the versions put into a schedule.
-/

set_option autoImplicit false

namespace Countersign

structure VersionEntry where
  version : UInt64
  activationHeight : UInt64
  tag : String
  covenantKeys : List String
  quorum : UInt32
  unbondingTime : UInt64
  unbondingFee : UInt64
  maxAmount : UInt64
  minAmount : UInt64
  maxTime : UInt64
  minTime : UInt64
  confirmationDepth : UInt64
  deriving DecidableEq

namespace VersionEntry

def parseTag (text : String) : Except VersionFault Tag := do
  let bytes ← (Hex.decode text).mapError .tagText
  match Tag.ofBytes? bytes with
  | some tag => return tag
  | none => throw (.tagLength bytes.length)

def parseKey (text : String) : Except VersionFault PublicKey := do
  let bytes ← (Hex.decode text).mapError (.keyText text)
  if bytes.length ≠ 33 then throw (.keyLength text)
  match PublicKey.ofBytes? bytes with
  | some key => return key
  | none => throw (.keyPoint text)

/-- Scripts name x-only keys, so a key may not repeat the x coordinate of one in `seen`. -/
def parseKeys (seen : List XOnlyKey) : List String → Except VersionFault (List PublicKey)
  | [] => .ok []
  | text :: rest => do
    let key ← parseKey text
    if seen.contains key.xOnly then throw (.duplicateKey text)
    return key :: (← parseKeys (key.xOnly :: seen) rest)

def narrow (field : NarrowField) (value : UInt64) : Except VersionFault UInt16 :=
  if value.toNat < UInt16.size then .ok value.toUInt16 else .error (.tooWide field value)

def parse (e : VersionEntry) : Except VersionFault Parameters := do
  let tag ← parseTag e.tag
  if e.covenantKeys.isEmpty then throw .noKeys
  let covenantKeys ← parseKeys [] e.covenantKeys
  if e.quorum = 0 ∨ e.quorum.toNat > covenantKeys.length then
    throw (.quorum e.quorum covenantKeys.length)
  let unbondingTime ← narrow .unbondingTime e.unbondingTime
  if unbondingTime = 0 then throw .noUnbondingTime
  if e.unbondingFee = 0 then throw .noUnbondingFee
  if e.minAmount = 0 ∨ e.minAmount > e.maxAmount then throw (.amountRange e.minAmount e.maxAmount)
  let minTime ← narrow .minStakingTime e.minTime
  let maxTime ← narrow .maxStakingTime e.maxTime
  if minTime = 0 ∨ minTime > maxTime then throw (.timeRange minTime maxTime)
  let confirmationDepth ← narrow .confirmationDepth e.confirmationDepth
  if confirmationDepth = 0 then throw .noConfirmationDepth
  if e.unbondingFee ≥ e.maxAmount then throw (.feeTooHigh e.unbondingFee e.maxAmount)
  return {
    covenantKeys, quorum := e.quorum, tag, unbondingTime, unbondingFee := e.unbondingFee
    maxAmount := e.maxAmount, minAmount := e.minAmount, maxTime, minTime, confirmationDepth }

def toVersion (e : VersionEntry) : Except ParamsError ParametersVersion := do
  let parameters ← e.parse.mapError (.invalid e.version)
  return { version := e.version, activationHeight := e.activationHeight, parameters }

def fields : List String :=
  ["version", "activation_height", "tag", "covenant_pks", "covenant_quorum", "unbonding_time",
   "unbonding_fee", "max_staking_amount", "min_staking_amount", "max_staking_time",
   "min_staking_time", "confirmation_depth"]

def ofJson? (v : Json) : Option VersionEntry := do
  let r ← v.record? fields
  return {
    version := ← r.required "version" Json.u64?
    activationHeight := ← r.required "activation_height" Json.u64?
    tag := ← r.required "tag" Json.text?
    covenantKeys := ← r.required "covenant_pks" fun v => do (← v.items?).mapM Json.text?
    quorum := ← r.required "covenant_quorum" Json.u32?
    unbondingTime := ← r.required "unbonding_time" Json.u64?
    unbondingFee := ← r.required "unbonding_fee" Json.u64?
    maxAmount := ← r.required "max_staking_amount" Json.u64?
    minAmount := ← r.required "min_staking_amount" Json.u64?
    maxTime := ← r.required "max_staking_time" Json.u64?
    minTime := ← r.required "min_staking_time" Json.u64?
    confirmationDepth := ← r.required "confirmation_depth" Json.u64? }

end VersionEntry

namespace Schedule

def entries? (v : Json) : Option (List VersionEntry) := do
  let r ← v.record? ["versions"]
  r.required "versions" fun v => do (← v.items?).mapM VersionEntry.ofJson?

/-- Numbering and heights are judged after all entries. -/
def ofEntries (entries : List VersionEntry) : Except ParamsError Schedule := do
  ofVersions (← entries.mapM VersionEntry.toVersion)

def parse (text : String) : Except ParamsError Schedule :=
  match (Json.parse? text).bind entries? with
  | some entries => ofEntries entries
  | none => .error .json

end Schedule

end Countersign
