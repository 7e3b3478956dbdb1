import Countersign.Proofs.Bitcoin.ScriptTrees
import Countersign.Proofs.Staking.Building
import Countersign.Proofs.Tapscript.Reading

/-!
# What a root binds

The scripts of a committee can be told apart by their items, and so can the three leaves and the two
kinds of trees. Hence the root of an output fixes its kind and all its terms but the order in which keys
are listed, provided that no two of the strings hashed for it have the same hash. The amount plays no part.
-/

set_option autoImplicit false

namespace Countersign

namespace Script.Item

def key? : Item → Option XOnlyKey
  | .key k => some k
  | .number _ => none
  | .op _ => none

def number? : Item → Option UInt32
  | .key _ => none
  | .number n => some n
  | .op _ => none

/-- Ends a check, so that the script goes on behind it. -/
def closes : Item → Bool
  | .op .checkSigVerify => true
  | .op .numEqualVerify => true
  | _ => false

end Script.Item

namespace Leaves

open Script

variable {keys keys' : List XOnlyKey} {quorum quorum' : UInt32} {verify : Bool}

theorem committeeItems_sortKeys :
    committeeItems (sortKeys keys) quorum verify = committeeItems keys quorum verify := by
  rcases keys with _ | ⟨a, _ | ⟨b, r⟩⟩
  · simp [sortKeys]
  · simp [sortKeys]
  · have hs := sortKeys_eq_of_perm (sortKeys_perm (a :: b :: r))
    have hl := (sortKeys_perm (a :: b :: r)).length_eq
    rcases h : sortKeys (a :: b :: r) with _ | ⟨c, _ | ⟨d, t⟩⟩
    · simp [h] at hl
    · simp [h] at hl
    · rw [h] at hs
      rw [committeeItems, committeeItems, hs, h]
      · simp
      · simp

theorem committeeItems_perm (h : keys.Perm keys') :
    committeeItems keys quorum verify = committeeItems keys' quorum verify := by
  rw [← committeeItems_sortKeys, sortKeys_eq_of_perm h, committeeItems_sortKeys]

theorem tally_keys (sorted : List XOnlyKey) :
    (tally sorted quorum verify).filterMap Item.key? = sorted := by
  have hrest : ∀ rest : List XOnlyKey, (rest.flatMap fun k =>
      [Item.key k, Item.op .checkSigAdd]).filterMap Item.key? = rest := by
    intro rest
    induction rest with
    | nil => rfl
    | cons k rest ih =>
      rw [List.flatMap_cons, List.filterMap_append, ih]
      rfl
  cases sorted with
  | nil => rfl
  | cons first rest =>
    rw [tally, List.filterMap_append, List.filterMap_append, hrest]
    exact List.append_nil _

theorem tally_numbers (first : XOnlyKey) (rest : List XOnlyKey) :
    (tally (first :: rest) quorum verify).filterMap Item.number? = [quorum] := by
  have hrest : (rest.flatMap fun k => [Item.key k, Item.op .checkSigAdd]).filterMap Item.number? =
      [] := by
    apply List.filterMap_eq_nil_iff.mpr
    intro i hi
    obtain ⟨k, -, hk⟩ := List.mem_flatMap.mp hi
    rcases List.mem_pair.mp hk with rfl | rfl
    · rfl
    · rfl
  rw [tally, List.filterMap_append, List.filterMap_append, hrest]
  rfl

theorem committeeItems_keys :
    (committeeItems keys quorum verify).filterMap Item.key? = sortKeys keys := by
  rcases keys with _ | ⟨a, _ | ⟨b, r⟩⟩
  · exact tally_keys _
  · simp [committeeItems, singleKey, Item.key?, sortKeys]
  · exact tally_keys _

/-- A committee's script names its keys and, unless there is but one, its quorum. -/
theorem committeeItems_inj (hk : Quorate keys quorum) (hk' : Quorate keys' quorum')
    (h : committeeItems keys quorum verify = committeeItems keys' quorum' verify) :
    keys.Perm keys' ∧ quorum = quorum' := by
  have hkeys := congrArg (List.filterMap Item.key?) h
  have hnumbers := congrArg (List.filterMap Item.number?) h
  rw [committeeItems_keys, committeeItems_keys] at hkeys
  refine ⟨(sortKeys_perm keys).symm.trans (hkeys ▸ sortKeys_perm keys'), ?_⟩
  rcases committeeItems_cases hk with ⟨k, -, hq, hi⟩ | ⟨first, rest, -, hi⟩
  · rcases committeeItems_cases hk' with ⟨k', -, hq', -⟩ | ⟨first, rest, -, hi'⟩
    · exact UInt32.toNat_inj.mp (hq.trans hq'.symm)
    · rw [hi, hi', tally_numbers] at hnumbers
      cases hnumbers
  · rcases committeeItems_cases hk' with ⟨k', -, -, hi'⟩ | ⟨first', rest', -, hi'⟩
    · rw [hi, hi', tally_numbers] at hnumbers
      cases hnumbers
    · rw [hi, hi', tally_numbers, tally_numbers] at hnumbers
      exact List.singleton_inj.mp hnumbers

theorem committeeItems_closes (hk : Quorate keys quorum) :
    ∃ body last, committeeItems keys quorum true = body ++ [last] ∧ last.closes = true ∧
      ∀ i ∈ body, i.closes = false := by
  rcases committeeItems_cases hk with ⟨k, -, -, hi⟩ | ⟨first, rest, -, hi⟩
  · exact ⟨[.key k], .op .checkSigVerify, hi true, rfl, by simp [Item.closes]⟩
  · refine ⟨singleKey first false ++ rest.flatMap (fun k => [.key k, .op .checkSigAdd]) ++
      [.number quorum], .op .numEqualVerify, by simp [hi, tally], rfl, ?_⟩
    intro i hm
    rcases List.mem_append.mp hm with hm | hm
    · rcases List.mem_append.mp hm with hm | hm
      · rcases List.mem_pair.mp hm with rfl | rfl
        · rfl
        · rfl
      · obtain ⟨k, -, hm⟩ := List.mem_flatMap.mp hm
        rcases List.mem_pair.mp hm with rfl | rfl
        · rfl
        · rfl
    · rw [List.mem_singleton.mp hm]
      rfl

/-- A check that is closed ends at the first item that closes one, whatever follows. -/
theorem closed_append_inj {rest rest' : List Item} (hk : Quorate keys quorum)
    (hk' : Quorate keys' quorum')
    (h : committeeItems keys quorum true ++ rest = committeeItems keys' quorum' true ++ rest') :
    committeeItems keys quorum true = committeeItems keys' quorum' true ∧ rest = rest' := by
  obtain ⟨body, last, hi, hlast, hbody⟩ := committeeItems_closes hk
  obtain ⟨body', last', hi', hlast', hbody'⟩ := committeeItems_closes hk'
  have hbody_taken : ∀ {is : List Item} {i : Item} (tail : List Item), i.closes = true →
      (∀ j ∈ is, j.closes = false) → (is ++ i :: tail).takeWhile (!·.closes) = is := by
    intro is i tail hc hn
    rw [List.takeWhile_append_of_pos (by simpa using hn)]
    simp [hc]
  rw [hi, hi', List.append_assoc, List.append_assoc, List.singleton_append, List.singleton_append] at h
  have hb := congrArg (List.takeWhile (!·.closes)) h
  rw [hbody_taken rest hlast hbody, hbody_taken rest' hlast' hbody'] at hb
  subst hb
  obtain ⟨rfl, rfl⟩ := List.cons.inj (List.append_cancel_left h)
  exact ⟨hi.trans hi'.symm, rfl⟩

theorem timelockScript_inj {key key' : XOnlyKey} {lockTime lockTime' : UInt16}
    (h : timelockScript key lockTime = timelockScript key' lockTime') :
    key = key' ∧ lockTime = lockTime' := by
  have hi := Tapscript.ofItems_injective h
  simp only [timelockItems, List.cons.injEq, Item.key.injEq, Item.number.injEq, and_true,
    true_and] at hi
  obtain ⟨hkey, hlock⟩ := hi
  refine ⟨hkey, UInt16.toNat_inj.mp ?_⟩
  have hn := congrArg UInt32.toNat hlock
  simpa using hn

theorem notMem_committeeItems :
    Item.op .checkSequenceVerify ∉ committeeItems keys quorum verify := by
  intro h
  unfold committeeItems at h
  split at h
  · cases verify <;> simp [singleKey] at h
  · unfold tally at h
    split at h
    · cases h
    · cases verify <;> simp [singleKey] at h

end Leaves

namespace Terms

open Leaves Script

variable {t u : Terms}

/-- The same terms but for the order in which the keys of each group are listed. -/
structure Agree (t u : Terms) : Prop where
  staker : t.staker = u.staker
  lockTime : t.lockTime = u.lockTime
  quorum : t.quorum = u.quorum
  covenants : t.covenants.Perm u.covenants
  finalityProviders : t.finalityProviders.Perm u.finalityProviders

structure Feasible (t : Terms) : Prop where
  covenants : Quorate t.covenants t.quorum
  finalityProviders : Quorate t.finalityProviders 1

theorem Agree.scripts_eq (h : t.Agree u) : t.scripts = u.scripts := by
  rw [scripts, scripts, h.staker, h.lockTime, h.quorum, committeeItems_perm h.covenants,
    committeeItems_perm h.finalityProviders]

theorem timelock_ne_of_notMem {items : List Item} (h : Item.op .checkSequenceVerify ∉ items) :
    t.scripts.timelock ≠ ofItems items := by
  intro he
  apply h
  rw [← Tapscript.ofItems_injective he]
  simp [timelockItems]

theorem timelock_ne_unbonding : t.scripts.timelock ≠ u.scripts.unbonding := by
  apply timelock_ne_of_notMem
  simp [singleKey, notMem_committeeItems]

theorem timelock_ne_slashing : t.scripts.timelock ≠ u.scripts.slashing := by
  apply timelock_ne_of_notMem
  simp [singleKey, notMem_committeeItems]

/-- The punishment names both committees, the second behind the end of the first. -/
theorem slashing_inj (ht : t.Feasible) (hu : u.Feasible)
    (h : t.scripts.slashing = u.scripts.slashing) :
    t.finalityProviders.Perm u.finalityProviders ∧ t.covenants.Perm u.covenants ∧
      t.quorum = u.quorum := by
  have hi := Tapscript.ofItems_injective h
  rw [List.append_assoc, List.append_assoc] at hi
  have hrest := (List.append_inj hi rfl).2
  obtain ⟨hproviders, hcovenants⟩ :=
    closed_append_inj ht.finalityProviders hu.finalityProviders hrest
  exact ⟨(committeeItems_inj ht.finalityProviders hu.finalityProviders hproviders).1,
    committeeItems_inj ht.covenants hu.covenants hcovenants⟩

theorem agree_of_scripts (ht : t.Feasible) (hu : u.Feasible)
    (timelock : t.scripts.timelock = u.scripts.timelock)
    (slashing : t.scripts.slashing = u.scripts.slashing) : t.Agree u := by
  obtain ⟨hstaker, hlock⟩ := timelockScript_inj timelock
  obtain ⟨hproviders, hcovenants, hquorum⟩ := slashing_inj ht hu slashing
  exact ⟨hstaker, hlock, hquorum, hcovenants, hproviders⟩

/-- Trees of locked outputs are alike when they are of one kind and for terms that agree. -/
theorem tree_alike_iff {kind kind' : LockKind} (ht : t.Feasible) (hu : u.Feasible) :
    (kind.tree t.scripts).Alike (kind'.tree u.scripts) ↔ kind = kind' ∧ t.Agree u := by
  constructor
  · intro h
    cases kind with
    | staking =>
      cases kind' with
      | staking =>
        simp only [LockKind.tree, Taproot.Tree.alike_branch, Taproot.Tree.alike_leaf,
          Taproot.Tree.not_alike_branch_leaf, false_and, or_false, timelock_ne_unbonding] at h
        obtain ⟨⟨timelock, -⟩, slashing⟩ := h
        exact ⟨rfl, agree_of_scripts ht hu timelock slashing⟩
      | unbonding => simp [LockKind.tree] at h
    | unbonding =>
      cases kind' with
      | staking => simp [LockKind.tree] at h
      | unbonding =>
        simp only [LockKind.tree, Taproot.Tree.alike_branch, Taproot.Tree.alike_leaf, false_and,
          or_false, timelock_ne_slashing] at h
        obtain ⟨timelock, slashing⟩ := h
        exact ⟨rfl, agree_of_scripts ht hu timelock slashing⟩
  · intro h
    obtain ⟨rfl, h⟩ := h
    rw [h.scripts_eq]
    cases kind with
    | staking => simp [LockKind.tree]
    | unbonding => simp [LockKind.tree]

end Terms

namespace LockedOutput

variable {kind kind' : LockKind} {terms terms' : Terms} {value value' : Amount}
  {o o' : LockedOutput}

theorem build_tree (built : build kind terms value = .ok o) :
    terms.Feasible ∧ o.tree = kind.tree terms.scripts := by
  obtain ⟨hc, hf, key, -, rfl⟩ := build_eq_ok_iff.mp built
  exact ⟨⟨hc, hf⟩, rfl⟩

/-- Whoever knows the root of an output knows what was agreed on, and nothing else enters it. -/
theorem root_eq_iff_agree (built : build kind terms value = .ok o)
    (built' : build kind' terms' value' = .ok o')
    (free : Sha256.CollisionFree (o.tree.inputs ++ o'.tree.inputs)) :
    o.tree.root = o'.tree.root ↔ kind = kind' ∧ terms.Agree terms' := by
  obtain ⟨ht, htree⟩ := build_tree built
  obtain ⟨ht', htree'⟩ := build_tree built'
  rw [Taproot.Tree.root_eq_iff free, htree, htree', Terms.tree_alike_iff ht ht']

open Sample in
/-- What a stake unbonds to cannot be taken for the stake. -/
theorem sample_root_ne :
    Sha256.CollisionFree ((staking 100000).tree.inputs ++ (unbonding 99000).tree.inputs) ∧
      (staking 100000).tree.root ≠ (unbonding 99000).tree.root := by
  have free : Sha256.CollisionFree
      ((staking 100000).tree.inputs ++ (unbonding 99000).tree.inputs) := by
    decide +kernel
  refine ⟨free, ?_⟩
  intro h
  have hk := (root_eq_iff_agree (staking_built 100000) (unbonding_built 99000) free).mp h
  exact absurd hk.1 (by decide)

end LockedOutput

end Countersign
