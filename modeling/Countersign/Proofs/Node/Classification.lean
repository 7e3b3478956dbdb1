import Countersign.Policy.Error
import Countersign.Proofs.Node.Lookup

/-!
# Whose fault a lookup is

A lookup takes two replies at most, and every pair of them is dealt with: the stake may be out of reach by
the caller's fault, the node may have failed, or the transaction is found where the node has it. The same
refusal means that the transaction is unknown when it comes first, and a failure when a block was asked for.
-/

set_option autoImplicit false

namespace Countersign.Node

def lookup (replies : Replies) (txid : Hash256) (script : Script) : Except PolicyError Inclusion :=
  (Dialogue.outcome (I := Rpc) replies (inclusion txid script)).mapError .ofLookup

section Kinds

variable (replies : Replies) (txid : Hash256) (script : Script)

/-- No such transaction is known, or the one that is sent does not pay the script, is in no block, or is
in a block that has left the main chain. -/
def Unavailable : Prop :=
  Unknown replies txid ∨ ∃ raw t, Sent replies txid raw t ∧
    ((∀ o ∈ t.outputs, o.script ≠ script) ∨ raw.blockHash = none ∨
      ∃ block position, raw.blockHash = some block ∧
        answer replies (headerCall block) = .ok position ∧ position.confirmations < 0)

/-- A call fails otherwise, or what it sends is no transaction or no height. -/
def Undecided : Prop :=
  (∃ e, answer replies (transactionCall txid) = .error e ∧ ¬ Unknown replies txid) ∨
    (∃ raw, answer replies (transactionCall txid) = .ok raw ∧ Transaction.decode? raw.hex = none) ∨
    ∃ raw t block, Mined replies txid script raw t block ∧
      ((∃ e, answer replies (headerCall block) = .error e) ∨
        ∃ position, answer replies (headerCall block) = .ok position ∧ ¬ position.confirmations < 0 ∧
          UInt32.size ≤ position.height.toNat)

/-- This transaction is sent, pays the script, and is in a block of the main chain at this height. -/
def Found (found : Inclusion) : Prop :=
  ∃ raw block position, Mined replies txid script raw found.transaction block ∧
    answer replies (headerCall block) = .ok position ∧ ¬ position.confirmations < 0 ∧
    found.height.toNat = position.height.toNat

end Kinds

section Locating

variable {replies : Replies} {txid : Hash256} {script : Script}

theorem Located.lookup_eq {result : Except NodeError TransactionStatus} {asked : List RpcCall}
    (h : Located replies txid script result asked) :
    lookup replies txid script =
        (result.mapError .node >>= inclusionOf txid).mapError .ofLookup ∧
      Dialogue.questions (I := Rpc) replies (inclusion txid script) = asked := by
  obtain ⟨rfl, rfl⟩ := h.runs
  refine ⟨by rw [lookup, inclusion_eq], ?_⟩
  refine (Dialogue.questions_bind (I := Rpc) replies (status txid script).run _).trans ?_
  cases Dialogue.outcome (I := Rpc) replies (status txid script).run with
  | error e => exact List.append_nil _
  | ok s => exact List.append_nil _

theorem Unavailable.lookup (h : Unavailable replies txid script) :
    ∃ c, lookup replies txid script = .error (.stakeUnavailable c) := by
  rcases h with unknown | ⟨raw, t, sent, h⟩
  · exact ⟨_, (Located.unknown unknown).lookup_eq.1⟩
  by_cases pays : ∃ o ∈ t.outputs, o.script = script
  · have paying : Paying replies txid script raw t := ⟨sent, pays⟩
    rcases h with unpaid | waiting | ⟨block, position, mined, header, orphaned⟩
    · obtain ⟨o, ho, here⟩ := pays
      exact absurd here (unpaid o ho)
    · exact ⟨_, (Located.waiting paying waiting).lookup_eq.1⟩
    · exact ⟨_, (Located.orphaned ⟨paying, mined⟩ header orphaned).lookup_eq.1⟩
  · exact ⟨_, (Located.unpaid sent (by simpa using pays)).lookup_eq.1⟩

theorem Undecided.lookup (h : Undecided replies txid script) :
    ∃ c, lookup replies txid script = .error (.chain c) := by
  rcases h with ⟨e, failed, otherwise⟩ | ⟨raw, sent, garbled⟩ | ⟨raw, t, block, mined, h⟩
  · exact ⟨_, (Located.failed failed otherwise).lookup_eq.1⟩
  · exact ⟨_, (Located.garbled sent garbled).lookup_eq.1⟩
  rcases h with ⟨e, failed⟩ | ⟨position, header, main, tooHigh⟩
  · exact ⟨_, (Located.headless mined failed).lookup_eq.1⟩
  · exact ⟨_, (Located.tooHigh mined header main tooHigh).lookup_eq.1⟩

theorem Found.lookup {found : Inclusion} (h : Found replies txid script found) :
    lookup replies txid script = .ok found := by
  obtain ⟨raw, block, position, mined, header, main, placed⟩ := h
  exact (Located.confirmed mined header main placed).lookup_eq.1

/-- Every pair of replies is of one of the three kinds. -/
theorem replies_cases (replies : Replies) (txid : Hash256) (script : Script) :
    Unavailable replies txid script ∨ Undecided replies txid script ∨
      ∃ found, Found replies txid script found := by
  obtain ⟨result, asked, located⟩ := exists_located replies txid script
  cases located with
  | unknown unknown => exact .inl (.inl unknown)
  | failed failed otherwise => exact .inr (.inl (.inl ⟨_, failed, otherwise⟩))
  | garbled sent garbled => exact .inr (.inl (.inr (.inl ⟨_, sent, garbled⟩)))
  | unpaid sent unpaid => exact .inl (.inr ⟨_, _, sent, .inl unpaid⟩)
  | waiting paying waiting => exact .inl (.inr ⟨_, _, paying.toSent, .inr (.inl waiting)⟩)
  | headless mined failed => exact .inr (.inl (.inr (.inr ⟨_, _, _, mined, .inl ⟨_, failed⟩⟩)))
  | orphaned mined header orphaned =>
    exact .inl (.inr ⟨_, _, mined.toSent, .inr (.inr ⟨_, _, mined.mined, header, orphaned⟩)⟩)
  | tooHigh mined header main tooHigh =>
    exact .inr (.inl (.inr (.inr ⟨_, _, _, mined, .inr ⟨_, header, main, tooHigh⟩⟩)))
  | @confirmed raw t block position h mined header main placed =>
    exact .inr (.inr ⟨⟨t, h⟩, raw, block, position, mined, header, main, placed⟩)

theorem lookup_cases (replies : Replies) (txid : Hash256) (script : Script) :
    (Unavailable replies txid script ∧
      ∃ c, lookup replies txid script = .error (.stakeUnavailable c)) ∨
    (Undecided replies txid script ∧ ∃ c, lookup replies txid script = .error (.chain c)) ∨
    ∃ found, Found replies txid script found ∧ lookup replies txid script = .ok found := by
  rcases replies_cases replies txid script with h | h | ⟨found, h⟩
  · exact .inl ⟨h, h.lookup⟩
  · exact .inr (.inl ⟨h, h.lookup⟩)
  · exact .inr (.inr ⟨found, h, h.lookup⟩)

theorem questions_inclusion (replies : Replies) (txid : Hash256) (script : Script) :
    (∃ raw t block, Mined replies txid script raw t block ∧
      Dialogue.questions (I := Rpc) replies (inclusion txid script) =
        [transactionRequest txid, headerRequest block]) ∨
    (¬ ∃ raw t block, Mined replies txid script raw t block) ∧
      Dialogue.questions (I := Rpc) replies (inclusion txid script) = [transactionRequest txid] := by
  by_cases h : ∃ raw t block, Mined replies txid script raw t block
  · obtain ⟨raw, t, block, mined⟩ := h
    obtain ⟨result, located⟩ := mined.located
    exact .inl ⟨raw, t, block, mined, located.lookup_eq.2⟩
  · refine .inr ⟨h, ?_⟩
    obtain ⟨result, asked, located⟩ := exists_located replies txid script
    rw [located.lookup_eq.2]
    cases located with
    | headless mined failed => exact absurd ⟨_, _, _, mined⟩ h
    | orphaned mined header orphaned => exact absurd ⟨_, _, _, mined⟩ h
    | tooHigh mined header main tooHigh => exact absurd ⟨_, _, _, mined⟩ h
    | confirmed mined header main placed => exact absurd ⟨_, _, _, mined⟩ h
    | _ => rfl

/-- Every pair of replies makes the lookup the caller's fault, the node's, or a success, exactly as it is of
the one kind or the other. A block is asked for only when the transaction pays the script. -/
theorem lookup_classified (replies : Replies) (txid : Hash256) (script : Script) :
    ((∃ c, lookup replies txid script = .error (.stakeUnavailable c)) ↔
      Unavailable replies txid script) ∧
    ((∃ c, lookup replies txid script = .error (.chain c)) ↔ Undecided replies txid script) ∧
    (∀ found, lookup replies txid script = .ok found ↔ Found replies txid script found) ∧
    (∀ e, lookup replies txid script = .error e →
      (∃ c, e = .stakeUnavailable c ∧ e.blame = .invalidRequest) ∨
        ∃ c, e = .chain c ∧ e.blame = .internal) ∧
    ((∃ raw t block, Mined replies txid script raw t block ∧
      Dialogue.questions (I := Rpc) replies (inclusion txid script) =
        [transactionRequest txid, headerRequest block]) ∨
    (¬ ∃ raw t block, Mined replies txid script raw t block) ∧
      Dialogue.questions (I := Rpc) replies (inclusion txid script) = [transactionRequest txid]) := by
  have kinds := lookup_cases replies txid script
  refine ⟨⟨?_, Unavailable.lookup⟩, ⟨?_, Undecided.lookup⟩, fun found => ⟨?_, Found.lookup⟩, ?_,
    questions_inclusion replies txid script⟩
  · rintro ⟨c, hc⟩
    rw [hc] at kinds
    rcases kinds with ⟨h, -⟩ | ⟨-, d, hd⟩ | ⟨found, -, hf⟩
    · exact h
    · cases hd
    · cases hf
  · rintro ⟨c, hc⟩
    rw [hc] at kinds
    rcases kinds with ⟨-, d, hd⟩ | ⟨h, -⟩ | ⟨found, -, hf⟩
    · cases hd
    · exact h
    · cases hf
  · intro hf
    rw [hf] at kinds
    rcases kinds with ⟨-, d, hd⟩ | ⟨-, d, hd⟩ | ⟨other, h, ho⟩
    · cases hd
    · cases hd
    · cases ho
      exact h
  · intro e he
    rw [he] at kinds
    rcases kinds with ⟨-, d, hd⟩ | ⟨-, d, hd⟩ | ⟨found, -, hf⟩
    · cases hd
      exact .inl ⟨d, rfl, rfl⟩
    · cases hd
      exact .inr ⟨d, rfl, rfl⟩
    · cases hf

end Locating

end Countersign.Node
