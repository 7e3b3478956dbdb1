import Countersign.Proofs.Staking.Committees
import Countersign.Proofs.Tapscript.Reading

/-!
# What a committee's script wants

Running the script of a committee takes one element for every key off the stack, in ascending order of
the keys, each of them nothing or a valid signature of its key, and goes by the number of those that are
not empty. A sole key's plain check and a counted multisignature come to the same. The count must stay
a number of four bytes, so committees are shorter than `2 ^ 31`.
-/

set_option autoImplicit false

namespace Countersign.Tapscript

open Leaves

def votes (es : Stack) : ℕ := es.countP (· ≠ [])

theorem votes_cons (e : Bytes) (es : Stack) : votes (e :: es) = votes [e] + votes es := by
  rw [votes, ← List.singleton_append, List.countP_append]
  rfl

theorem ofBool_eq_votes (e : Bytes) : ofBool (decide (e ≠ [])) = writeNumber (votes [e] : ℕ) := by
  by_cases h : e = []
  · simp [votes, h, ofBool, writeNumber_zero]
  · simp [votes, h, ofBool, writeNumber, digits]

theorem votes_eq_one_iff (e : Bytes) : votes [e] = 1 ↔ e ≠ [] := by
  by_cases h : e = []
  · simp [votes, h]
  · simp [votes, h]

namespace Setting

variable (c : Setting)

/-- The empty string signs nothing, whatever is valid. -/
def Signed (key : XOnlyKey) (e : Bytes) : Prop := e ≠ [] ∧ c.valid key.bytes e = true

/-- A key may be passed over, but not with a signature that is not valid. -/
def Cast (key : XOnlyKey) (e : Bytes) : Prop := e = [] ∨ c.Signed key e

/-- The elements that a committee has to leave on the stack for its quorum, top first. -/
def Ballot (keys : List XOnlyKey) (quorum : ℕ) (es : Stack) : Prop :=
  ∃ ordered : List XOnlyKey, ordered.Perm keys ∧ Ascending ordered ∧
    List.Forall₂ c.Cast ordered es ∧ votes es = quorum

variable {c} {key : XOnlyKey} {s t : Stack}

theorem check_eq_some {e : Bytes} {ok : Bool} :
    c.check key.bytes e = some ok ↔ c.Cast key e ∧ ok = decide (e ≠ []) := by
  have hk : key.bytes ≠ [] := by
    intro h
    have hl := key.bytes_length
    simp [h] at hl
  unfold check Cast Signed
  by_cases he : e = []
  · simp [hk, he, Eq.comm (a := false)]
  · by_cases hv : c.valid key.bytes e = true
    · simp [hk, he, hv, Eq.comm (a := true)]
    · simp [hk, he, hv, key.bytes_length]

theorem run_verify :
    c.run [.push key.bytes, .op .checkSigVerify] s = some t ↔
      ∃ e, s = e :: t ∧ c.Signed key e := by
  cases s with
  | nil => simp [run, step]
  | cons e r =>
    simp only [run, step, Option.bind_some, Option.bind_eq_some_iff, check_eq_some]
    constructor
    · intro h
      obtain ⟨u, ⟨ok, ⟨hc, rfl⟩, hu⟩, ht⟩ := h
      by_cases he : e = []
      · simp [he] at hu
      · simp only [he, ne_eq, not_false_eq_true, decide_true, ite_true, Option.some.injEq] at hu ht
        subst hu ht
        exact ⟨e, rfl, hc.resolve_left he⟩
    · intro h
      obtain ⟨e', he, hs⟩ := h
      cases he
      exact ⟨t, ⟨true, ⟨Or.inr hs, by simp [hs.1]⟩, rfl⟩, rfl⟩

theorem run_check :
    c.run [.push key.bytes, .op .checkSig] s = some t ↔
      ∃ e r, s = e :: r ∧ c.Cast key e ∧ t = writeNumber (votes [e] : ℕ) :: r := by
  cases s with
  | nil => simp [run, step]
  | cons e r =>
    simp only [run, step, Option.bind_some, Option.bind_eq_some_iff, Option.map_eq_some_iff,
      check_eq_some]
    constructor
    · intro h
      obtain ⟨u, ⟨ok, ⟨hc, rfl⟩, rfl⟩, ht⟩ := h
      rw [ofBool_eq_votes] at ht
      exact ⟨e, r, rfl, hc, (Option.some.inj ht).symm⟩
    · intro h
      obtain ⟨e', r', he, hc, rfl⟩ := h
      cases he
      exact ⟨_, ⟨_, ⟨hc, rfl⟩, rfl⟩, by rw [ofBool_eq_votes]⟩

def countSteps (keys : List XOnlyKey) : List Instruction :=
  keys.flatMap fun k => [.push k.bytes, .op .checkSigAdd]

theorem run_add {n : ℕ} (hn : 2 * n < 256 ^ 4) :
    c.run [.push key.bytes, .op .checkSigAdd] (writeNumber n :: s) = some t ↔
      ∃ e r, s = e :: r ∧ c.Cast key e ∧ t = writeNumber (n + votes [e] : ℕ) :: r := by
  cases s with
  | nil => simp [run, step]
  | cons e r =>
    simp only [run, step, Option.bind_eq_bind, Option.bind_some, Option.bind_eq_some_iff,
      Option.pure_def, readNumber_writeNumber hn, check_eq_some]
    have hv : (if decide (e ≠ []) = true then (n : ℤ) + 1 else n) = (n + votes [e] : ℕ) := by
      by_cases he : e = []
      · simp [votes, he]
      · simp [votes, he]
    constructor
    · intro h
      obtain ⟨u, ⟨ok, ⟨hc, rfl⟩, hu⟩, ht⟩ := h
      rw [hv] at hu
      cases hu
      exact ⟨e, r, rfl, hc, (Option.some.inj ht).symm⟩
    · intro h
      obtain ⟨e', r', he, hc, rfl⟩ := h
      cases he
      exact ⟨_, ⟨_, ⟨hc, rfl⟩, by rw [hv]⟩, rfl⟩

/-- The count so far stays on top, above what the remaining keys have not yet taken. -/
theorem run_countSteps (keys : List XOnlyKey) {n : ℕ} (hn : n + keys.length < 2 ^ 31) :
    c.run (countSteps keys) (writeNumber n :: s) = some t ↔
      ∃ es r, s = es ++ r ∧ List.Forall₂ c.Cast keys es ∧
        t = writeNumber (n + votes es : ℕ) :: r := by
  induction keys generalizing n s with
  | nil =>
    constructor
    · intro h
      exact ⟨[], s, rfl, List.Forall₂.nil, (Option.some.inj h).symm⟩
    · intro h
      obtain ⟨es, r, rfl, hf, rfl⟩ := h
      cases hf
      rfl
  | cons k ks ih =>
    rw [List.length_cons] at hn
    have hk : 2 * n < 256 ^ 4 := by omega
    rw [show countSteps (k :: ks) = [.push k.bytes, .op .checkSigAdd] ++ countSteps ks from rfl,
      run_append, Option.bind_eq_some_iff]
    constructor
    · intro h
      obtain ⟨u, hu, h⟩ := h
      obtain ⟨e, r, rfl, hc, rfl⟩ := (run_add hk).mp hu
      have hv : votes [e] ≤ 1 := List.countP_le_length
      obtain ⟨es, r', rfl, hf, rfl⟩ := (ih (by omega)).mp h
      exact ⟨e :: es, r', rfl, List.Forall₂.cons hc hf, by rw [votes_cons e es, Nat.add_assoc]⟩
    · intro h
      obtain ⟨es, r, rfl, hf, rfl⟩ := h
      obtain ⟨e, es', hc, hf', rfl⟩ := List.forall₂_cons_left_iff.mp hf
      have hv : votes [e] ≤ 1 := List.countP_le_length
      refine ⟨_, (run_add hk).mpr ⟨e, es' ++ r, rfl, hc, rfl⟩, ?_⟩
      exact (ih (by omega)).mpr ⟨es', r, rfl, hf', by rw [votes_cons e es', Nat.add_assoc]⟩

theorem run_counted {first : XOnlyKey} {rest : List XOnlyKey}
    (hl : (first :: rest).length < 2 ^ 31) :
    c.run ([.push first.bytes, .op .checkSig] ++ countSteps rest) s = some t ↔
      ∃ es r, s = es ++ r ∧ List.Forall₂ c.Cast (first :: rest) es ∧
        t = writeNumber (votes es : ℕ) :: r := by
  rw [List.length_cons] at hl
  rw [run_append, Option.bind_eq_some_iff]
  constructor
  · intro h
    obtain ⟨u, hu, h⟩ := h
    obtain ⟨e, r, rfl, hc, rfl⟩ := run_check.mp hu
    have hv : votes [e] ≤ 1 := List.countP_le_length
    obtain ⟨es, r', rfl, hf, rfl⟩ := (run_countSteps rest (by omega)).mp h
    exact ⟨e :: es, r', rfl, List.Forall₂.cons hc hf, by rw [votes_cons e es]⟩
  · intro h
    obtain ⟨es, r, rfl, hf, rfl⟩ := h
    obtain ⟨e, es', hc, hf', rfl⟩ := List.forall₂_cons_left_iff.mp hf
    have hv : votes [e] ≤ 1 := List.countP_le_length
    refine ⟨_, run_check.mpr ⟨e, es' ++ r, rfl, hc, rfl⟩, ?_⟩
    exact (run_countSteps rest (by omega)).mpr ⟨es', r, rfl, hf', by rw [votes_cons e es']⟩

theorem votes_number {keys : List XOnlyKey} {es : Stack} (hf : List.Forall₂ c.Cast keys es)
    (hl : keys.length < 2 ^ 31) : 2 * votes es < 256 ^ 4 := by
  have hle : votes es ≤ es.length := List.countP_le_length
  rw [← hf.length_eq] at hle
  omega

section Compare

variable {n q : ℕ} (hn : 2 * n < 256 ^ 4) (hq : 2 * q < 256 ^ 4)

include hn hq

theorem run_numEqual :
    c.run [.push (writeNumber q), .op .numEqual] (writeNumber n :: s) =
      some (ofBool (decide (n = q)) :: s) := by
  simp [run, step, readNumber_writeNumber hn, readNumber_writeNumber hq]

theorem run_numEqualVerify :
    c.run [.push (writeNumber q), .op .numEqualVerify] (writeNumber n :: s) =
      if n = q then some s else none := by
  by_cases h : n = q
  · simp [run, step, readNumber_writeNumber hq, h]
  · simp [run, step, readNumber_writeNumber hn, readNumber_writeNumber hq, h]

end Compare

theorem map_tally (first : XOnlyKey) (rest : List XOnlyKey) (quorum : UInt32) (verify : Bool) :
    (tally (first :: rest) quorum verify).map ofItem =
      [.push first.bytes, .op .checkSig] ++ countSteps rest ++
        [.push (writeNumber quorum.toNat), .op (if verify then .numEqualVerify else .numEqual)] := by
  simp [tally, singleKey, countSteps, ofItem, List.map_flatMap]

theorem run_tally {first : XOnlyKey} {rest : List XOnlyKey} (hl : (first :: rest).length < 2 ^ 31)
    (quorum : UInt32) (verify : Bool) :
    c.run ((tally (first :: rest) quorum verify).map ofItem) s = some t ↔
      ∃ es r, s = es ++ r ∧ List.Forall₂ c.Cast (first :: rest) es ∧
        c.run [.push (writeNumber quorum.toNat), .op (if verify then .numEqualVerify else .numEqual)]
          (writeNumber (votes es : ℕ) :: r) = some t := by
  rw [map_tally, run_append, Option.bind_eq_some_iff]
  constructor
  · intro h
    obtain ⟨u, hu, h⟩ := h
    obtain ⟨es, r, rfl, hf, rfl⟩ := (run_counted hl).mp hu
    exact ⟨es, r, rfl, hf, h⟩
  · intro h
    obtain ⟨es, r, rfl, hf, h⟩ := h
    exact ⟨_, (run_counted hl).mpr ⟨es, r, rfl, hf, rfl⟩, h⟩

theorem sorted_length {keys : List XOnlyKey} (hl : keys.length < 2 ^ 31) :
    (sortKeys keys).length < 2 ^ 31 := by
  rw [(sortKeys_perm keys).length_eq]
  exact hl

section Quorum

variable {keys : List XOnlyKey} {quorum : UInt32} (hk : Quorate keys quorum)
  (hl : keys.length < 2 ^ 31)

include hk

theorem ballot_iff {es : Stack} :
    c.Ballot keys quorum.toNat es ↔
      List.Forall₂ c.Cast (sortKeys keys) es ∧ votes es = quorum.toNat := by
  have hs := (ascending_sortKeys_iff keys).mpr hk.nodup
  constructor
  · intro h
    obtain ⟨ordered, hp, ha, hf, hv⟩ := h
    rw [eq_of_ascending hs ha ((sortKeys_perm keys).trans hp.symm)]
    exact ⟨hf, hv⟩
  · intro h
    obtain ⟨hf, hv⟩ := h
    exact ⟨sortKeys keys, sortKeys_perm keys, hs, hf, hv⟩

include hl

theorem quorum_number : 2 * quorum.toNat < 256 ^ 4 := by
  have hle := hk.le
  omega

theorem run_committee :
    c.run ((committeeItems keys quorum false).map ofItem) s = some t ↔
      ∃ es r, s = es ++ r ∧ List.Forall₂ c.Cast (sortKeys keys) es ∧
        t = ofBool (decide (votes es = quorum.toNat)) :: r := by
  rcases committeeItems_cases hk with ⟨k, hs, hq, hi⟩ | ⟨first, rest, hs, hi⟩
  · rw [hi, hs, hq]
    apply run_check.trans
    constructor
    · intro h
      obtain ⟨e, r, rfl, hc, rfl⟩ := h
      refine ⟨[e], r, rfl, List.Forall₂.cons hc List.Forall₂.nil, ?_⟩
      rw [← ofBool_eq_votes]
      simp only [votes_eq_one_iff]
    · intro h
      obtain ⟨es, r, rfl, hf, rfl⟩ := h
      obtain ⟨e, es', hc, hf', rfl⟩ := List.forall₂_cons_left_iff.mp hf
      cases hf'
      refine ⟨e, r, rfl, hc, ?_⟩
      rw [← ofBool_eq_votes]
      simp only [votes_eq_one_iff]
  · have hlen := sorted_length hl
    have hq := quorum_number hk hl
    rw [hs] at hlen
    rw [hi, hs, run_tally hlen]
    constructor
    · intro h
      obtain ⟨es, r, rfl, hf, h⟩ := h
      simp only [Bool.false_eq_true, ite_false, run_numEqual (votes_number hf hlen) hq,
        Option.some.injEq] at h
      exact ⟨es, r, rfl, hf, h.symm⟩
    · intro h
      obtain ⟨es, r, rfl, hf, rfl⟩ := h
      refine ⟨es, r, rfl, hf, ?_⟩
      simp only [Bool.false_eq_true, ite_false, run_numEqual (votes_number hf hlen) hq]

theorem run_committee_verify :
    c.run ((committeeItems keys quorum true).map ofItem) s = some t ↔
      ∃ es, s = es ++ t ∧ c.Ballot keys quorum.toNat es := by
  simp only [ballot_iff hk]
  rcases committeeItems_cases hk with ⟨k, hs, hq, hi⟩ | ⟨first, rest, hs, hi⟩
  · rw [hi, hs, hq]
    apply run_verify.trans
    constructor
    · intro h
      obtain ⟨e, rfl, hc⟩ := h
      exact ⟨[e], rfl, List.Forall₂.cons (Or.inr hc) List.Forall₂.nil, (votes_eq_one_iff e).mpr hc.1⟩
    · intro h
      obtain ⟨es, rfl, hf, hv⟩ := h
      obtain ⟨e, es', hc, hf', rfl⟩ := List.forall₂_cons_left_iff.mp hf
      cases hf'
      exact ⟨e, rfl, hc.resolve_left ((votes_eq_one_iff e).mp hv)⟩
  · have hlen := sorted_length hl
    have hq := quorum_number hk hl
    rw [hs] at hlen
    rw [hi, hs, run_tally hlen]
    constructor
    · intro h
      obtain ⟨es, r, rfl, hf, h⟩ := h
      rw [if_pos rfl, run_numEqualVerify (votes_number hf hlen) hq] at h
      split_ifs at h with he
      exact ⟨es, by rw [Option.some.inj h], hf, he⟩
    · intro h
      obtain ⟨es, rfl, hf, he⟩ := h
      refine ⟨es, t, rfl, hf, ?_⟩
      rw [if_pos rfl, run_numEqualVerify (votes_number hf hlen) hq, if_pos he]

end Quorum

end Setting

end Countersign.Tapscript
