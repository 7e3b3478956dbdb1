import Countersign.Proofs.Params.Validity
import Countersign.Proofs.Tapscript.Spending

/-!
# Members and their slots

A member of a committee is a full key, and scripts name it by its x coordinate. Under parameters that were
accepted the two views line up: an unbonding leaf has one slot for each member and none besides, whatever
the size of the committee, and no two members differ in parity only.
-/

set_option autoImplicit false

namespace Countersign

namespace Tapscript

open Leaves

/-- The strings in front of checks that leave their outcome behind to be counted. The staker's check leaves
nothing behind, so that even a staker who is a member as well has no slot for it. -/
def counted : List Instruction → List Bytes
  | .push b :: .op .checkSig :: is => b :: counted is
  | .push b :: .op .checkSigAdd :: is => b :: counted is
  | _ :: is => counted is
  | [] => []

def slots (script : Script) : List Bytes := ((read script).map counted).getD []

variable {keys : List XOnlyKey} {quorum : UInt32}

theorem counted_single (key : XOnlyKey) (is : List Instruction) :
    counted ((singleKey key false).map ofItem ++ is) = key.bytes :: counted is := by
  simp [singleKey, ofItem, counted]

theorem counted_staker (key : XOnlyKey) (is : List Instruction) :
    counted ((singleKey key true).map ofItem ++ is) = counted is := by
  simp [singleKey, ofItem, counted]

theorem counted_further (rest : List XOnlyKey) (is : List Instruction) :
    counted ((rest.flatMap fun k => [.key k, .op .checkSigAdd]).map ofItem ++ is) =
      rest.map XOnlyKey.bytes ++ counted is := by
  induction rest with
  | nil => rfl
  | cons k rest ih =>
    rw [List.map_cons, List.cons_append, ← ih]
    simp [ofItem, counted]

theorem counted_tally (first : XOnlyKey) (rest : List XOnlyKey) :
    counted ((tally (first :: rest) quorum false).map ofItem) = (first :: rest).map XOnlyKey.bytes := by
  rw [tally, List.map_append, List.map_append, List.append_assoc, counted_single, counted_further]
  simp [ofItem, counted]

theorem counted_committee (hk : Quorate keys quorum) :
    counted ((committeeItems keys quorum false).map ofItem) = (sortKeys keys).map XOnlyKey.bytes := by
  rcases committeeItems_cases hk with ⟨k, sorted, -, items⟩ | ⟨first, rest, sorted, items⟩
  · rw [items, sorted, ← List.append_nil (List.map ofItem _), counted_single]
    rfl
  · rw [items, sorted, counted_tally]

theorem slots_unbonding {t : Terms} (hk : Quorate t.covenants t.quorum) :
    slots t.scripts.unbonding = (sortKeys t.covenants).map XOnlyKey.bytes := by
  rw [slots, Terms.scripts, read_ofItems, Option.map_some, Option.getD_some, List.map_append,
    counted_staker, counted_committee hk]

/-- The quorum is counted over the slots: behind the staker's signature each of them takes one element of
the stack, which adds one to the count if it is a signature that is valid for the slot. -/
theorem accepts_unbonding_iff {t : Terms} (hk : Quorate t.covenants t.quorum)
    (hl : t.covenants.length < 2 ^ 31) {c : Setting} {stack : Stack} :
    c.accepts t.scripts.unbonding stack = true ↔
      ∃ sig es, stack = sig :: es ∧ c.Signed t.staker sig ∧
        List.Forall₂ (fun b e => e = [] ∨ e ≠ [] ∧ c.valid b e = true) (slots t.scripts.unbonding) es ∧
        votes es = t.quorum.toNat := by
  rw [slots_unbonding hk, Terms.scripts, Setting.accepts_committee hk hl]
  simp only [Setting.run_singleKey, Setting.ballot_iff hk, List.forall₂_map_left_iff]
  constructor
  · rintro ⟨es, ⟨sig, rfl, signed⟩, ballot⟩
    exact ⟨sig, es, rfl, signed, ballot⟩
  · rintro ⟨sig, es, rfl, signed, ballot⟩
    exact ⟨es, ⟨sig, rfl, signed⟩, ballot⟩

end Tapscript

def PublicKey.scriptName (key : PublicKey) : Bytes := key.xOnly.bytes

namespace Parameters

open Tapscript PublicKey

variable {p : Parameters} {script : Script}

/-- Members and slots of the script are matched one to one, by the x coordinate. -/
structure Seated (p : Parameters) (script : Script) : Prop where
  matching : Set.BijOn scriptName {k | p.isMember k = true} {b | b ∈ slots script}
  slot : ∀ k, p.isMember k = true → ∃! i : ℕ, (slots script)[i]? = some (scriptName k)
  member : ∀ (i : ℕ) (b : Bytes), (slots script)[i]? = some b → ∃! k : PublicKey, p.isMember k = true ∧ scriptName k = b
  parity : ∀ x, ¬ (p.isMember ⟨x, false⟩ = true ∧ p.isMember ⟨x, true⟩ = true)

theorem isMember_iff {key : PublicKey} : p.isMember key = true ↔ key ∈ p.covenantKeys :=
  List.contains_iff_mem

theorem existsUnique_index {α : Type} {l : List α} (h : l.Nodup) {a : α} (ha : a ∈ l) :
    ∃! i : ℕ, l[i]? = some a := by
  obtain ⟨i, hi, rfl⟩ := List.mem_iff_getElem.mp ha
  refine ⟨i, List.getElem?_eq_getElem hi, ?_⟩
  intro j hj
  obtain ⟨hj', same⟩ := List.getElem?_eq_some_iff.mp hj
  exact (h.getElem_inj_iff).mp same

theorem seated_of_perm (names : (slots script).Perm (p.covenantKeys.map scriptName))
    (distinct : (p.covenantKeys.map scriptName).Nodup) : p.Seated script := by
  have injective : ∀ k, p.isMember k = true → ∀ l, p.isMember l = true → scriptName k = scriptName l → k = l := by
    intro k hk l hl same
    exact List.inj_on_of_nodup_map distinct (isMember_iff.mp hk) (isMember_iff.mp hl) same
  have named : ∀ k, p.isMember k = true → scriptName k ∈ slots script := by
    intro k hk
    exact names.mem_iff.mpr (List.mem_map_of_mem (isMember_iff.mp hk))
  have owned : ∀ b ∈ slots script, ∃ k, p.isMember k = true ∧ scriptName k = b := by
    intro b hb
    obtain ⟨k, hk, same⟩ := List.mem_map.mp (names.mem_iff.mp hb)
    exact ⟨k, isMember_iff.mpr hk, same⟩
  constructor
  · refine ⟨named, ?_, owned⟩
    intro k hk l hl same
    exact injective k hk l hl same
  · intro k hk
    exact existsUnique_index (names.nodup_iff.mpr distinct) (named k hk)
  · intro i b hb
    obtain ⟨k, hk, same⟩ := owned b (List.mem_of_getElem? hb)
    refine ⟨k, ⟨hk, same⟩, ?_⟩
    rintro l ⟨hl, same'⟩
    exact injective l hl k hk (same'.trans same.symm)
  · rintro x ⟨even, odd⟩
    have h := injective _ even _ odd rfl
    cases h

end Parameters

namespace Schedule

open Parameters PublicKey Tapscript

/-- Whoever may be asked to sign counts for one of the quorum, and only for one. -/
theorem members_seated {text : String} {s : Schedule} {v : ParametersVersion}
    (accepted : parse text = .ok s) (listed : v ∈ s.versions) (staker finalityProvider : XOnlyKey)
    (time : UInt16) :
    ∃ leaves, (Stake.terms staker finalityProvider v.parameters.committee v.parameters.quorum time).leaves =
      .ok leaves ∧ v.parameters.Seated leaves.unbonding := by
  have quorate := (valid_of_parse accepted v listed).committee
  refine ⟨_, Terms.leaves_of_quorate quorate rfl, ?_⟩
  have names : (v.parameters.committee).map XOnlyKey.bytes = v.parameters.covenantKeys.map scriptName := by
    rw [committee, List.map_map]
    rfl
  apply seated_of_perm
  · rw [slots_unbonding, ← names]
    · exact (Leaves.sortKeys_perm _).map _
    · exact quorate
  · rw [← names]
    exact quorate.nodup.map fun _ _ same => XOnlyKey.bytes_injective same

open Sample in
theorem sample_members_seated : parse paramsText = .ok schedule ∧ version ∈ schedule.versions ∧
    parameters.Seated (leaves 1000).unbonding := by
  have listed : version ∈ schedule.versions := List.mem_singleton_self _
  refine ⟨schedule_accepted, listed, ?_⟩
  obtain ⟨l, made, seated⟩ := members_seated schedule_accepted listed staker provider 1000
  have same : l = leaves 1000 := by
    rw [← terms_scripts]
    exact (Terms.leaves_eq_ok.mp made).2.2
  exact same ▸ seated

end Schedule

end Countersign
