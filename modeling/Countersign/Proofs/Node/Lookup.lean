import Mathlib.Tactic.SplitIfs
import Countersign.Node.Chain
import Countersign.Proofs.Bitcoin.Transactions
import Countersign.Proofs.Json.Records
import Countersign.Proofs.Node.Calls

/-!
# What a chain lookup finds

With the reply to every call fixed, a lookup comes down to two of them: the transaction as the node has
it, and where its block stands. What is found is the same whichever script is asked for with it; of the
script no more is asked than that some output of the transaction pays it.
-/

set_option autoImplicit false

namespace Countersign

open Outcome

namespace Node

def transactionRequest (txid : Hash256) : RpcCall :=
  ⟨"getrawtransaction", [Json.ofText txid.text, .bool true]⟩

def headerRequest (block : Hash256) : RpcCall :=
  ⟨"getblockheader", [Json.ofText block.text, .bool true]⟩

section Replied

variable (replies : Replies) (txid : Hash256) (script : Script)

def Unknown : Prop :=
  ∃ message data, replies (transactionRequest txid) = .error (.refused (-5) message data)

structure Sent (raw : RawTransaction) (t : Transaction) : Prop where
  sent : answer replies (transactionCall txid) = .ok raw
  decoded : Transaction.decode? raw.hex = some t

structure Paying (raw : RawTransaction) (t : Transaction) : Prop extends Sent replies txid raw t where
  pays : ∃ o ∈ t.outputs, o.script = script

structure Mined (raw : RawTransaction) (t : Transaction) (block : Hash256) : Prop
    extends Paying replies txid script raw t where
  mined : raw.blockHash = some block

/-- The replies that matter, with the status and the calls they make. -/
inductive Located : Except NodeError TransactionStatus → List RpcCall → Prop where
  | unknown (unknown : Unknown replies txid) : Located (.ok .notFound) [transactionRequest txid]
  | failed {e : NodeError} (failed : answer replies (transactionCall txid) = .error e)
      (otherwise : ¬ Unknown replies txid) : Located (.error e) [transactionRequest txid]
  | garbled {raw : RawTransaction} (sent : answer replies (transactionCall txid) = .ok raw)
      (garbled : Transaction.decode? raw.hex = none) :
      Located (.error (.invalidTransaction txid)) [transactionRequest txid]
  | unpaid {raw : RawTransaction} {t : Transaction} (sent : Sent replies txid raw t)
      (unpaid : ∀ o ∈ t.outputs, o.script ≠ script) : Located (.ok .notFound) [transactionRequest txid]
  | waiting {raw : RawTransaction} {t : Transaction} (paying : Paying replies txid script raw t)
      (waiting : raw.blockHash = none) : Located (.ok (.inMempool t)) [transactionRequest txid]
  | headless {raw : RawTransaction} {t : Transaction} {block : Hash256} {e : NodeError}
      (mined : Mined replies txid script raw t block)
      (failed : answer replies (headerCall block) = .error e) :
      Located (.error e) [transactionRequest txid, headerRequest block]
  | orphaned {raw : RawTransaction} {t : Transaction} {block : Hash256} {position : BlockPosition}
      (mined : Mined replies txid script raw t block)
      (header : answer replies (headerCall block) = .ok position) (orphaned : position.confirmations < 0) :
      Located (.ok .notFound) [transactionRequest txid, headerRequest block]
  | tooHigh {raw : RawTransaction} {t : Transaction} {block : Hash256} {position : BlockPosition}
      (mined : Mined replies txid script raw t block)
      (header : answer replies (headerCall block) = .ok position) (main : ¬ position.confirmations < 0)
      (tooHigh : UInt32.size ≤ position.height.toNat) :
      Located (.error (.heightOutOfRange position.height)) [transactionRequest txid, headerRequest block]
  | confirmed {raw : RawTransaction} {t : Transaction} {block : Hash256} {position : BlockPosition}
      {h : UInt32} (mined : Mined replies txid script raw t block)
      (header : answer replies (headerCall block) = .ok position) (main : ¬ position.confirmations < 0)
      (placed : h.toNat = position.height.toNat) :
      Located (.ok (.inChain ⟨t, block, h⟩)) [transactionRequest txid, headerRequest block]

end Replied

section Locating

variable {replies : Replies} {txid : Hash256} {script : Script}

theorem height_toUInt64 (n : UInt32) : height n.toUInt64 = .ok n := by
  rw [height, UInt32.toNat_toUInt64, if_pos n.toNat_lt, UInt32.toUInt32_toUInt64]

theorem height_eq_ok {n : UInt64} {h : UInt32} : height n = .ok h ↔ h.toNat = n.toNat := by
  unfold height
  split_ifs with fits
  · rw [Except.ok.injEq, ← UInt32.toNat_inj, UInt64.toNat_toUInt32, Nat.mod_eq_of_lt fits, eq_comm]
  · simp only [false_iff]
    intro same
    exact fits (same ▸ h.toNat_lt_size)

theorem height_eq_error {n : UInt64} {e : NodeError} :
    height n = .error e ↔ UInt32.size ≤ n.toNat ∧ .heightOutOfRange n = e := by
  unfold height
  split_ifs with fits
  · simp [Nat.not_le.mpr fits]
  · simp [Nat.le_of_not_lt fits]

theorem transactionCall_refused {message : String} {data : Option Json} :
    answer replies (transactionCall txid) = .error (.rpc (.refused (-5) message data)) ↔
      replies (transactionRequest txid) = .error (.refused (-5) message data) := by
  rw [transactionCall, answer_call]
  show Except.mapError _ (replies (transactionRequest txid)) >>= _ = _ ↔ _
  cases replies (transactionRequest txid) with
  | error e => simp [Except.mapError, bind, Except.bind]
  | ok v =>
    cases hv : RawTransaction.ofJson? v with
    | none => simp [Except.mapError, bind, Except.bind, hv]
    | some raw => simp [Except.mapError, bind, Except.bind, hv]

theorem unknown_iff : Unknown replies txid ↔
    ∃ message data,
      answer replies (transactionCall txid) = .error (.rpc (.refused (-5) message data)) := by
  simp only [transactionCall_refused, Unknown]

theorem runs_rawTransaction_ok {raw : RawTransaction}
    (sent : answer replies (transactionCall txid) = .ok raw) :
    Runs replies (rawTransaction? txid) (.ok (some raw)) [transactionRequest txid] :=
  Runs.catch_ok ((runs_call sent).bind_ok (runs_pure (some raw)))

theorem runs_rawTransaction_unknown (unknown : Unknown replies txid) :
    Runs replies (rawTransaction? txid) (.ok none) [transactionRequest txid] := by
  obtain ⟨message, data, refused⟩ := unknown_iff.mp unknown
  have first : Runs replies (some <$> transactionCall txid) _ _ := (runs_call refused).bind_error
  exact first.catch_error (runs_pure none)

theorem runs_rawTransaction_error {e : NodeError}
    (failed : answer replies (transactionCall txid) = .error e) (otherwise : ¬ Unknown replies txid) :
    Runs replies (rawTransaction? txid) (.error e) [transactionRequest txid] := by
  have first : Runs replies (some <$> transactionCall txid) _ _ := (runs_call failed).bind_error
  refine first.catch_error ?_
  split
  · rename_i code message data
    have other : code ≠ unknownTransaction := by
      rintro rfl
      exact otherwise (unknown_iff.mpr ⟨message, data, failed⟩)
    rw [if_neg other]
    exact runs_throw _
  · exact runs_throw _

theorem Mined.runs {raw : RawTransaction} {t : Transaction} {block : Hash256}
    {result : Except NodeError TransactionStatus} {asked : List RpcCall}
    (mined : Mined replies txid script raw t block)
    (rest : Runs replies (do
      let position ← headerCall block
      if position.confirmations < 0 then return .notFound
      let height ← ExceptT.mk (.done (height position.height))
      return .inChain ⟨t, block, height⟩) result asked) :
    Runs replies (status txid script) result ([transactionRequest txid] ++ asked) := by
  refine (runs_rawTransaction_ok mined.sent).bind_ok ?_
  have paid : ¬ (t.outputs.all fun o => o.script ≠ script) = true := by simpa using mined.pays
  simp only [mined.decoded, mined.mined]
  rw [if_neg paid]
  exact rest

theorem Located.runs {result : Except NodeError TransactionStatus} {asked : List RpcCall}
    (h : Located replies txid script result asked) : Runs replies (status txid script) result asked := by
  cases h with
  | unknown unknown => exact (runs_rawTransaction_unknown unknown).bind_ok (runs_pure _)
  | failed failed otherwise => exact (runs_rawTransaction_error failed otherwise).bind_error
  | garbled sent garbled =>
    refine (runs_rawTransaction_ok sent).bind_ok ?_
    simp only [garbled]
    exact runs_throw _
  | unpaid sent unpaid =>
    refine (runs_rawTransaction_ok sent.sent).bind_ok ?_
    simp only [sent.decoded]
    rw [if_pos (by simpa using unpaid)]
    exact runs_pure _
  | waiting paying waiting =>
    refine (runs_rawTransaction_ok paying.sent).bind_ok ?_
    simp only [paying.decoded, waiting]
    rw [if_neg (by simpa using paying.pays)]
    exact runs_pure _
  | headless mined failed => exact mined.runs (runs_call failed).bind_error
  | orphaned mined header orphaned =>
    refine mined.runs ((runs_call header).bind_ok ?_)
    rw [if_pos orphaned]
    exact runs_pure _
  | @tooHigh raw t block position mined header main tooHigh =>
    refine mined.runs ((runs_call header).bind_ok ?_)
    have high : height position.height = _ := height_eq_error.mpr ⟨tooHigh, rfl⟩
    rw [if_neg main, high]
    exact (runs_lift _).bind_error
  | @confirmed raw t block position h mined header main placed =>
    refine mined.runs ((runs_call header).bind_ok ?_)
    have low : height position.height = _ := height_eq_ok.mpr placed
    rw [if_neg main, low]
    exact (runs_lift _).bind_ok (runs_pure _)

theorem Mined.located {raw : RawTransaction} {t : Transaction} {block : Hash256}
    (mined : Mined replies txid script raw t block) :
    ∃ result, Located replies txid script result [transactionRequest txid, headerRequest block] := by
  cases header : answer replies (headerCall block) with
  | error e => exact ⟨_, .headless mined header⟩
  | ok position =>
    by_cases orphaned : position.confirmations < 0
    · exact ⟨_, .orphaned mined header orphaned⟩
    · cases placed : height position.height with
      | error e => exact ⟨_, .tooHigh mined header orphaned (height_eq_error.mp placed).1⟩
      | ok h => exact ⟨_, .confirmed mined header orphaned (height_eq_ok.mp placed)⟩

theorem exists_located (replies : Replies) (txid : Hash256) (script : Script) :
    ∃ result asked, Located replies txid script result asked := by
  cases sent : answer replies (transactionCall txid) with
  | error e =>
    by_cases unknown : Unknown replies txid
    · exact ⟨_, _, .unknown unknown⟩
    · exact ⟨_, _, .failed sent unknown⟩
  | ok raw =>
    cases decoded : Transaction.decode? raw.hex with
    | none => exact ⟨_, _, .garbled sent decoded⟩
    | some t =>
      by_cases pays : ∃ o ∈ t.outputs, o.script = script
      · have paying : Paying replies txid script raw t := ⟨⟨sent, decoded⟩, pays⟩
        cases block : raw.blockHash with
        | none => exact ⟨_, _, .waiting paying block⟩
        | some hash =>
          have mined : Mined replies txid script raw t hash := ⟨paying, block⟩
          obtain ⟨result, located⟩ := mined.located
          exact ⟨result, _, located⟩
      · exact ⟨_, _, .unpaid ⟨sent, decoded⟩ (by simpa using pays)⟩

/-- The node has the transaction in a block of the main chain. -/
structure Confirms (replies : Replies) (txid : Hash256) (raw : RawTransaction) (position : BlockPosition)
    (confirmed : ConfirmedTransaction) : Prop where
  sent : answer replies (transactionCall txid) = .ok raw
  decoded : Transaction.decode? raw.hex = some confirmed.transaction
  mined : raw.blockHash = some confirmed.blockHash
  header : answer replies (headerCall confirmed.blockHash) = .ok position
  main : ¬ position.confirmations < 0
  placed : height position.height = .ok confirmed.height

/-- What the node has of a transaction, whatever script is asked for. -/
def Includes (replies : Replies) (txid : Hash256) (found : Inclusion) : Prop :=
  ∃ raw block position, Confirms replies txid raw position ⟨found.transaction, block, found.height⟩

theorem Includes.unique {a b : Inclusion} (ha : Includes replies txid a) (hb : Includes replies txid b) :
    a = b := by
  obtain ⟨raw, block, position, h⟩ := ha
  obtain ⟨raw', block', position', h'⟩ := hb
  obtain rfl := Except.ok.inj (h.sent.symm.trans h'.sent)
  obtain rfl := Option.some.inj (h.mined.symm.trans h'.mined)
  obtain rfl := Except.ok.inj (h.header.symm.trans h'.header)
  cases a
  cases b
  obtain rfl := Option.some.inj (h.decoded.symm.trans h'.decoded)
  obtain rfl := Except.ok.inj (h.placed.symm.trans h'.placed)
  rfl

theorem status_eq_inChain {confirmed : ConfirmedTransaction} :
    answer replies (status txid script) = .ok (.inChain confirmed) ↔
      (∃ raw position, Confirms replies txid raw position confirmed) ∧
        ∃ o ∈ confirmed.transaction.outputs, o.script = script := by
  constructor
  · intro h
    obtain ⟨result, asked, located⟩ := exists_located replies txid script
    obtain rfl : result = _ := located.runs.1.symm.trans h
    cases located with
    | confirmed mined header main placed =>
      exact ⟨⟨_, _, mined.sent, mined.decoded, mined.mined, header, main, height_eq_ok.mpr placed⟩,
        mined.pays⟩
  · rintro ⟨⟨raw, position, h⟩, pays⟩
    have mined : Mined replies txid script raw confirmed.transaction confirmed.blockHash :=
      ⟨⟨⟨h.sent, h.decoded⟩, pays⟩, h.mined⟩
    exact (Located.confirmed mined h.header h.main (height_eq_ok.mp h.placed)).runs.1

theorem inclusion_eq :
    Dialogue.outcome (I := Rpc) replies (inclusion txid script) =
      (answer replies (status txid script)).mapError .node >>= inclusionOf txid := by
  refine (Dialogue.outcome_bind (I := Rpc) replies (status txid script).run _).trans ?_
  unfold answer
  cases Dialogue.outcome (I := Rpc) replies (status txid script).run with
  | error e => rfl
  | ok s => rfl

theorem inclusion_eq_ok {found : Inclusion} :
    Dialogue.outcome (I := Rpc) replies (inclusion txid script) = .ok found ↔
      Includes replies txid found ∧ ∃ o ∈ found.transaction.outputs, o.script = script := by
  rw [inclusion_eq, bind_eq_ok]
  constructor
  · rintro ⟨s, located, found⟩
    cases s with
    | notFound => cases found
    | inMempool t => cases found
    | inChain confirmed =>
      cases found
      obtain ⟨⟨raw, position, confirms⟩, pays⟩ := status_eq_inChain.mp (mapError_eq_ok.mp located)
      exact ⟨⟨raw, confirmed.blockHash, position, confirms⟩, pays⟩
  · rintro ⟨⟨raw, block, position, confirms⟩, pays⟩
    have located := status_eq_inChain.mpr ⟨⟨raw, position, confirms⟩, pays⟩
    exact ⟨_, mapError_eq_ok.mpr located, rfl⟩

end Locating

end Node

namespace Json

theorem hex?_ofText (b : Bytes) : (ofText (Hex.encode b)).hex? = some b := by
  rw [hex?, text?_ofText]
  exact Hex.decode?_encode b

theorem hash256?_ofText (h : Hash256) : (ofText h.text).hash256? = some h := by
  rw [hash256?, text?_ofText, Option.bind_some, Hash256.ofText?, Hash256.text, Hex.decode?_encode,
    Option.bind_some, List.reverse_reverse, Hash256.ofBytes?_bytes]

end Json

namespace Sample

open Node

def block : Hash256 := ⟨List.replicate 32 9, rfl⟩

def minedRecord (t : Transaction) : Json := Json.ofMembers
  [("hex", Json.ofText t.text), ("txid", Json.ofText block.text), ("hash", Json.ofText block.text),
    ("size", Json.ofNat 300), ("vsize", Json.ofNat 300), ("version", Json.ofNat 2),
    ("locktime", Json.ofNat 0), ("vin", .array []), ("vout", .array []),
    ("blockhash", Json.ofText block.text)]

def headerRecord (height : UInt64) : Json := Json.ofMembers
  [("hash", Json.ofText block.text), ("confirmations", Json.ofNat 10),
    ("height", Json.ofNat height.toNat), ("version", Json.ofNat 4), ("merkleroot", Json.ofText block.text),
    ("time", Json.ofNat 0), ("nonce", Json.ofNat 0), ("bits", Json.ofText "1d00ffff"),
    ("difficulty", Json.ofNat 1), ("chainwork", Json.ofText (Hex.encode [])), ("nTx", Json.ofNat 2)]

theorem minedRecord_read (t : Transaction) :
    RawTransaction.ofJson? (minedRecord t) = some ⟨t.encode, some block⟩ := by
  unfold RawTransaction.ofJson? minedRecord
  rw [Json.record?_ofMembers (by simp) (by simp)]
  simp only [Option.bind_eq_bind, Option.bind_some, Json.Record.required_recordOf,
    Json.Record.optional_recordOf, List.lookup_cons, List.lookup_nil, String.reduceBEq, Option.map_none,
    Option.map_some, Option.getD_some, Option.getD_none, Json.Record.unlessNull_ofText, Transaction.text,
    Json.hex?_ofText, Json.hash256?_ofText]
  rfl

theorem difficulty_read : (Json.ofNat 1).float? = some () := by decide +kernel

theorem headerRecord_read (height : UInt64) :
    BlockPosition.ofJson? (headerRecord height) = some ⟨10, height⟩ := by
  unfold BlockPosition.ofJson? headerRecord
  rw [Json.record?_ofMembers (by simp) (by simp)]
  simp only [Option.bind_eq_bind, Option.bind_some, Json.Record.required_recordOf,
    Json.Record.optional_recordOf, Json.Record.defaulted_recordOf, List.lookup_cons, List.lookup_nil,
    String.reduceBEq, Option.map_none, Option.getD_none, Json.hex?_ofText,
    Json.hash256?_ofText, Json.text?_ofText, Json.u64?_ofNat, difficulty_read]
  rfl

def node (t : Transaction) (height tip : UInt32) : Replies := fun call =>
  if call.method = "getrawtransaction" then .ok (minedRecord t)
  else if call.method = "getblockheader" then .ok (headerRecord height.toUInt64)
  else .ok (Json.ofNat tip.toUInt64.toNat)

variable {t : Transaction} {height tip : UInt32}

theorem node_includes (short : t.encode.length ≤ Transaction.maxTextBytes) (txid : Hash256) :
    Includes (node t height tip) txid ⟨t, height⟩ := by
  have hmain : ¬ (10 : Int32) < 0 := by decide
  refine ⟨_, block, _, answer_call_ok _ rfl (minedRecord_read t), ?_, rfl,
    answer_call_ok _ rfl (headerRecord_read _), hmain, ?_⟩
  · exact Transaction.decode?_eq_some.mpr ⟨Transaction.countable_of_length_le short, rfl⟩
  · exact height_toUInt64 height

theorem node_tip : Dialogue.outcome (I := Rpc) (node t height tip) Node.tip = .ok tip := by
  have counted : answer (node t height tip) blockCountCall = .ok tip.toUInt64 :=
    answer_call_ok _ rfl (Json.u64?_ofNat _)
  have best : answer (node t height tip) bestHeight = .ok tip := by
    rw [bestHeight, answer_bind, counted]
    exact height_toUInt64 tip
  refine (Dialogue.outcome_bind (I := Rpc) _ bestHeight.run _).trans ?_
  rw [answer] at best
  rw [best]
  rfl

end Sample

end Countersign
