import Countersign.Proofs.Outcome
import Countersign.Staking.LockedOutput

/-!
# Locked outputs and their leaves

What a successful build consists of, that its amount plays no part in whether it succeeds, and that a
tree reveals every script among its leaves.
-/

set_option autoImplicit false

namespace Countersign

open Outcome

namespace Taproot.Tree

def scripts : Tree → List Script
  | .leaf s => [s]
  | .branch l r => l.scripts ++ r.scripts

theorem shorter_isSome (p q : Option (List Hash256)) :
    (shorter p q).isSome = (p.isSome || q.isSome) := by
  cases p with
  | none => simp [shorter]
  | some p =>
    cases q with
    | none => simp [shorter]
    | some q =>
      by_cases h : q.length < p.length
      · simp [shorter, h]
      · simp [shorter, h]

theorem path?_isSome_iff (script : Script) (t : Tree) :
    (t.path? script).isSome = true ↔ script ∈ t.scripts := by
  induction t with
  | leaf s =>
    by_cases h : s = script
    · simp [path?, scripts, h]
    · simp [path?, scripts, h, Ne.symm h]
  | branch l r ihl ihr =>
    simp [path?, scripts, shorter_isSome, ihl, ihr]

end Taproot.Tree

namespace LockedOutput

variable {kind : LockKind} {terms : Terms} {value : Amount} {o : LockedOutput}

theorem build_eq_ok :
    build kind terms value = .ok o ↔ ∃ leaves key, terms.leaves = .ok leaves ∧
      Taproot.outputKey? unspendableKey (kind.tree leaves).root = some key ∧
      o = ⟨kind, leaves, key, value⟩ := by
  simp only [build, bind_eq_ok]
  constructor
  · intro h
    obtain ⟨leaves, hl, h⟩ := h
    cases hk : Taproot.outputKey? unspendableKey (kind.tree leaves).root with
    | none => simp [hk, throw_ne_ok] at h
    | some key =>
      simp only [hk, pure_eq_ok] at h
      exact ⟨leaves, key, hl, hk, h.symm⟩
  · intro h
    obtain ⟨leaves, key, hl, hk, rfl⟩ := h
    exact ⟨leaves, hl, by simp [hk, pure_eq_ok]⟩

theorem build_error {leaves : Leaves} {e : StakingError} (hl : terms.leaves = .ok leaves)
    (h : build kind terms value = .error e) : e = .untweakable := by
  unfold build at h
  rw [hl] at h
  cases hk : Taproot.outputKey? unspendableKey (kind.tree leaves).root with
  | none =>
    simp only [bind, Except.bind, hk] at h
    exact (Except.error.inj h).symm
  | some key =>
    simp only [bind, Except.bind, hk] at h
    cases h

theorem build_kind (h : build kind terms value = .ok o) : o.kind = kind := by
  obtain ⟨leaves, key, -, -, rfl⟩ := build_eq_ok.mp h
  rfl

theorem build_value (h : build kind terms value = .ok o) : o.value = value := by
  obtain ⟨leaves, key, -, -, rfl⟩ := build_eq_ok.mp h
  rfl

theorem build_leaves (h : build kind terms value = .ok o) : terms.leaves = .ok o.leaves := by
  obtain ⟨leaves, key, hl, -, rfl⟩ := build_eq_ok.mp h
  exact hl

/-- The same terms lock any other amount just as well, with the same script. -/
theorem build_revalue (h : build kind terms value = .ok o) (other : Amount) :
    build kind terms other = .ok { o with value := other } := by
  obtain ⟨leaves, key, hl, hk, rfl⟩ := build_eq_ok.mp h
  exact build_eq_ok.mpr ⟨leaves, key, hl, hk, rfl⟩

theorem reveal_eq_ok {script : Script} (h : script ∈ o.tree.scripts) :
    ∃ path, o.reveal script = .ok path ∧ path.script = script := by
  obtain ⟨hashes, hp⟩ := Option.isSome_iff_exists.mp ((Taproot.Tree.path?_isSome_iff _ _).mpr h)
  refine ⟨⟨⟨Taproot.tapscript, o.outputKey.odd, unspendableKey, hashes⟩, script⟩, ?_, rfl⟩
  simp only [reveal, hp]

theorem reveal_script {script : Script} {path : RevealedLeaf}
    (h : o.reveal script = .ok path) : path.script = script := by
  unfold reveal at h
  split at h
  · simp at h
  · simp only [Except.ok.injEq] at h
    rw [← h]

theorem unbondingPath_eq_ok (h : build .staking terms value = .ok o) :
    ∃ path, o.unbondingPath = .ok path ∧ path.script = o.leaves.unbonding := by
  apply reveal_eq_ok
  simp [tree, build_kind h, LockKind.tree, Taproot.Tree.scripts]

end LockedOutput

end Countersign
