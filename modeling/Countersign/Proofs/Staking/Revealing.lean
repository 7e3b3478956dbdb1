import Countersign.Proofs.Staking.Binding

/-!
# What a revealed leaf proves

The hashes beside the way from a leaf to the root are enough to find the root again, for whichever side
each of them stands on. Since no two leaves of a stake are the same script, each is found at its own depth,
and its control block leads to the key that the output pays to, with the right parity.
-/

set_option autoImplicit false

namespace Countersign

namespace Taproot

theorem branchHash_comm (a b : Hash256) : branchHash a b = branchHash b a := by
  simp only [branchHash, branchPreimage_comm]

/-- The root to which the hashes beside the way up from a leaf lead. -/
def climb (leaf : Hash256) (path : List Hash256) : Hash256 := path.foldl branchHash leaf

theorem climb_append (leaf : Hash256) (path rest : List Hash256) :
    climb leaf (path ++ rest) = climb (climb leaf path) rest :=
  List.foldl_append

namespace Tree

variable {l r t : Tree} {script : Script} {path : List Hash256}

theorem shorter_eq_some {p q : Option (List Hash256)} (h : shorter p q = some path) :
    p = some path ∨ q = some path := by
  cases p with
  | none => exact Or.inr h
  | some a =>
    cases q with
    | none => exact Or.inl h
    | some b =>
      simp only [shorter] at h
      split_ifs at h
      · exact Or.inr h
      · exact Or.inl h

/-- Every path that a tree gives leads to its root, whichever of several leaves it starts from. -/
theorem climb_path (h : t.path? script = some path) : climb (leafHash script) path = t.root := by
  induction t generalizing path with
  | leaf s =>
    unfold path? at h
    split_ifs at h with hs
    cases h
    rw [← hs]
    rfl
  | branch l r ihl ihr =>
    rcases shorter_eq_some h with h | h
    · obtain ⟨below, hb, rfl⟩ := Option.map_eq_some_iff.mp h
      rw [climb_append, ihl hb]
      rfl
    · obtain ⟨below, hb, rfl⟩ := Option.map_eq_some_iff.mp h
      rw [climb_append, ihr hb]
      exact branchHash_comm r.root l.root

theorem path?_leaf (s : Script) : (leaf s).path? s = some [] := if_pos rfl

theorem path?_eq_none (h : script ∉ t.scripts) : t.path? script = none := by
  rw [← path?_isSome_iff] at h
  simpa using h

theorem path?_of_left (h : l.path? script = some path) (apart : script ∉ r.scripts) :
    (branch l r).path? script = some (path ++ [r.root]) := by
  rw [path?, h, path?_eq_none apart]
  rfl

theorem path?_of_right (apart : script ∉ l.scripts) (h : r.path? script = some path) :
    (branch l r).path? script = some (path ++ [l.root]) := by
  rw [path?, h, path?_eq_none apart]
  rfl

end Tree

end Taproot

structure Leaves.Distinct (l : Leaves) : Prop where
  timelock_unbonding : l.timelock ≠ l.unbonding
  timelock_slashing : l.timelock ≠ l.slashing
  unbonding_slashing : l.unbonding ≠ l.slashing

namespace Leaves.Distinct

open Taproot Tree

variable {l : Leaves} (distinct : l.Distinct)

include distinct

theorem staking_timelock_path : (LockKind.staking.tree l).path? l.timelock =
    some [leafHash l.unbonding, leafHash l.slashing] := by
  have below : (branch (leaf l.timelock) (leaf l.unbonding)).path? l.timelock =
      some [leafHash l.unbonding] :=
    path?_of_left (path?_leaf _) (by simpa [scripts] using distinct.timelock_unbonding)
  exact path?_of_left below (by simpa [scripts] using distinct.timelock_slashing)

theorem staking_unbonding_path : (LockKind.staking.tree l).path? l.unbonding =
    some [leafHash l.timelock, leafHash l.slashing] := by
  have below : (branch (leaf l.timelock) (leaf l.unbonding)).path? l.unbonding =
      some [leafHash l.timelock] :=
    path?_of_right (by simpa [scripts] using distinct.timelock_unbonding.symm) (path?_leaf _)
  exact path?_of_left below (by simpa [scripts] using distinct.unbonding_slashing)

theorem staking_slashing_path : (LockKind.staking.tree l).path? l.slashing =
    some [branchHash (leafHash l.timelock) (leafHash l.unbonding)] := by
  apply path?_of_right _ (path?_leaf _)
  simpa [scripts] using ⟨distinct.timelock_slashing.symm, distinct.unbonding_slashing.symm⟩

theorem unbonding_timelock_path : (LockKind.unbonding.tree l).path? l.timelock =
    some [leafHash l.slashing] :=
  path?_of_left (path?_leaf _) (by simpa [scripts] using distinct.timelock_slashing)

theorem unbonding_slashing_path : (LockKind.unbonding.tree l).path? l.slashing =
    some [leafHash l.timelock] :=
  path?_of_right (by simpa [scripts] using distinct.timelock_slashing.symm) (path?_leaf _)

end Leaves.Distinct

namespace Terms

open Leaves

variable {t : Terms}

/-- The punishment asks for more than the unbonding, namely for a finality provider. -/
theorem unbonding_ne_slashing (providers : Quorate t.finalityProviders 1) :
    t.scripts.unbonding ≠ t.scripts.slashing := by
  intro h
  obtain ⟨body, last, hitems, -⟩ := committeeItems_closes providers
  have hlength := congrArg List.length (Tapscript.ofItems_injective h)
  rw [hitems] at hlength
  simp only [List.length_append, List.length_singleton] at hlength
  omega

theorem scripts_distinct (providers : Quorate t.finalityProviders 1) : t.scripts.Distinct :=
  ⟨timelock_ne_unbonding, timelock_ne_slashing, unbonding_ne_slashing providers⟩

end Terms

/-- The revealed leaf is this one, it stands at this depth, and what it is revealed with leads to the key
in the script of the output, with its parity. -/
structure RevealedLeaf.Proves (r : RevealedLeaf) (leaf output : Script) (depth : ℕ) : Prop where
  script : r.script = leaf
  leafVersion : r.controlBlock.leafVersion = Taproot.tapscript
  internalKey : r.controlBlock.internalKey = unspendableKey
  depth : r.controlBlock.path.length = depth
  commits : ∃ key : XOnlyKey, output = Script.taproot key ∧
    Taproot.outputKey? r.controlBlock.internalKey
      (Taproot.climb (Taproot.leafHash leaf) r.controlBlock.path) = some ⟨key, r.controlBlock.odd⟩

def Opened (path : Except StakingError RevealedLeaf) (leaf output : Script) (depth : ℕ) : Prop :=
  ∃ r, path = .ok r ∧ r.Proves leaf output depth

namespace LockedOutput

open Taproot Tree

variable {kind : LockKind} {terms : Terms} {value : Amount} {o : LockedOutput}

theorem opened_of_path (built : build kind terms value = .ok o) {leaf : Script} {path : List Hash256}
    (h : o.tree.path? leaf = some path) : Opened (o.reveal leaf) leaf o.script path.length := by
  obtain ⟨-, -, key, hkey, rfl⟩ := build_eq_ok_iff.mp built
  refine ⟨⟨⟨tapscript, key.odd, unspendableKey, path⟩, leaf⟩, by simp only [reveal, h], ?_⟩
  have commits : outputKey? unspendableKey (climb (leafHash leaf) path) = some key := by
    rw [climb_path h]
    exact hkey
  exact ⟨rfl, rfl, rfl, rfl, key.xOnly, rfl, commits⟩

/-- The three leaves differ, and each that an output of its kind offers is revealed at its own depth and
proved to belong to the output. -/
theorem revealed_leaf_proves (built : build kind terms value = .ok o) :
    o.leaves.Distinct ∧
    (kind = .staking →
      Opened o.timelockPath o.leaves.timelock o.script 2 ∧
      Opened o.unbondingPath o.leaves.unbonding o.script 2 ∧
      Opened o.slashingPath o.leaves.slashing o.script 1) ∧
    (kind = .unbonding →
      Opened o.timelockPath o.leaves.timelock o.script 1 ∧
      Opened o.slashingPath o.leaves.slashing o.script 1) := by
  obtain ⟨-, providers, key, -, ho⟩ := build_eq_ok_iff.mp built
  have distinct : o.leaves.Distinct := by
    rw [ho]
    exact Terms.scripts_distinct providers
  have htree : o.tree = kind.tree o.leaves := by rw [ho]; rfl
  refine ⟨distinct, ?_, ?_⟩
  · rintro rfl
    have timelock := distinct.staking_timelock_path
    have unbonding := distinct.staking_unbonding_path
    have slashing := distinct.staking_slashing_path
    rw [← htree] at timelock unbonding slashing
    exact ⟨opened_of_path built timelock, opened_of_path built unbonding, opened_of_path built slashing⟩
  · rintro rfl
    have timelock := distinct.unbonding_timelock_path
    have slashing := distinct.unbonding_slashing_path
    rw [← htree] at timelock slashing
    exact ⟨opened_of_path built timelock, opened_of_path built slashing⟩

/-- The unbonding leaf of a stake stands two hashes below the root. -/
theorem sample_leaf_proves :
    build .staking (Sample.terms 1000) 100000 = .ok (Sample.staking 100000) ∧
      Opened (Sample.staking 100000).unbondingPath (Sample.leaves 1000).unbonding
        (Sample.staking 100000).script 2 := by
  obtain ⟨-, staking, -⟩ := revealed_leaf_proves (Sample.staking_built 100000)
  obtain ⟨-, unbonding, -⟩ := staking rfl
  exact ⟨Sample.staking_built 100000, unbonding⟩

end LockedOutput

end Countersign
