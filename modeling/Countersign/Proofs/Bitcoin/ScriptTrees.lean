import Countersign.Bitcoin.Taproot
import Countersign.Proofs.Bitcoin.Hashing

/-!
# Roots and trees

The root of a script tree depends on the leaves and on how they are paired, but not on which child of a
branch comes first. As long as no two of the strings that are hashed on the way to two roots have the
same hash, equal roots mean trees that are alike in this sense, whatever their shapes.
-/

set_option autoImplicit false

namespace Countersign.Taproot

open Sha256

theorem leafPreimage_injective : Function.Injective leafPreimage := by
  intro a b h
  rw [leafPreimage, leafPreimage, List.cons.injEq] at h
  exact CompactSize.sized_injective h.2

theorem branchPreimage_comm (a b : Hash256) : branchPreimage a b = branchPreimage b a := by
  simp only [branchPreimage, Bytes.le_iff]
  by_cases hab : a.bytes ≤ b.bytes
  · by_cases hba : b.bytes ≤ a.bytes
    · rw [if_pos hab, if_pos hba, List.le_antisymm hab hba]
    · rw [if_pos hab, if_neg hba]
  · have hba := (List.le_total a.bytes b.bytes).resolve_left hab
    rw [if_neg hab, if_pos hba]

theorem branchPreimage_cases (a b : Hash256) :
    branchPreimage a b = a.bytes ++ b.bytes ∨ branchPreimage a b = b.bytes ++ a.bytes := by
  unfold branchPreimage
  by_cases h : Bytes.le a.bytes b.bytes
  · exact Or.inl (if_pos h)
  · exact Or.inr (if_neg h)

theorem pair_inj {a b c d : Hash256} (h : a.bytes ++ b.bytes = c.bytes ++ d.bytes) :
    a = c ∧ b = d := by
  obtain ⟨hac, hbd⟩ := List.append_inj h (by rw [a.length_eq, c.length_eq])
  exact ⟨Hash256.bytes_injective hac, Hash256.bytes_injective hbd⟩

/-- A branch remembers its two children but not their order. -/
theorem branchPreimage_inj {a b c d : Hash256} (h : branchPreimage a b = branchPreimage c d) :
    (a = c ∧ b = d) ∨ (a = d ∧ b = c) := by
  rcases branchPreimage_cases a b with hab | hab
  · rcases branchPreimage_cases c d with hcd | hcd
    · exact Or.inl (pair_inj (hab.symm.trans (h.trans hcd)))
    · exact Or.inr (pair_inj (hab.symm.trans (h.trans hcd)))
  · rcases branchPreimage_cases c d with hcd | hcd
    · exact Or.inr (pair_inj (hab.symm.trans (h.trans hcd))).symm
    · exact Or.inl (pair_inj (hab.symm.trans (h.trans hcd))).symm

theorem leafTag_ne_branchTag : Sha256.hash leafTag ≠ Sha256.hash branchTag := by
  decide +kernel

namespace Tree

def input : Tree → Bytes
  | .leaf s => taggedInput leafTag (leafPreimage s)
  | .branch l r => taggedInput branchTag (branchPreimage l.root r.root)

def inputs : Tree → List Bytes
  | .leaf s => [(leaf s).input]
  | .branch l r => (branch l r).input :: (l.inputs ++ r.inputs)

/-- The same leaves, paired alike, with the children of each branch in either order. -/
inductive Alike : Tree → Tree → Prop where
  | leaf (s : Script) : Alike (.leaf s) (.leaf s)
  | straight {l r l' r' : Tree} (left : Alike l l') (right : Alike r r') :
    Alike (.branch l r) (.branch l' r')
  | crossed {l r l' r' : Tree} (left : Alike l r') (right : Alike r l') :
    Alike (.branch l r) (.branch l' r')

@[simp] theorem alike_leaf {s s' : Script} : Alike (.leaf s) (.leaf s') ↔ s = s' := by
  constructor
  · intro h
    cases h
    rfl
  · rintro rfl
    exact .leaf s

@[simp] theorem not_alike_leaf_branch {s : Script} {l r : Tree} : ¬ Alike (.leaf s) (.branch l r) := by
  intro h
  cases h

@[simp] theorem not_alike_branch_leaf {s : Script} {l r : Tree} : ¬ Alike (.branch l r) (.leaf s) := by
  intro h
  cases h

@[simp] theorem alike_branch {l r l' r' : Tree} :
    Alike (.branch l r) (.branch l' r') ↔ (Alike l l' ∧ Alike r r') ∨ (Alike l r' ∧ Alike r l') := by
  constructor
  · intro h
    cases h with
    | straight left right => exact Or.inl ⟨left, right⟩
    | crossed left right => exact Or.inr ⟨left, right⟩
  · intro h
    rcases h with ⟨left, right⟩ | ⟨left, right⟩
    · exact .straight left right
    · exact .crossed left right

theorem root_bytes (t : Tree) : t.root.bytes = Sha256.hash t.input := by
  cases t with
  | leaf s => rfl
  | branch l r => rfl

theorem input_mem (t : Tree) : t.input ∈ t.inputs := by
  cases t with
  | leaf s => exact List.mem_singleton_self _
  | branch l r => exact List.mem_cons_self

theorem input_eq {t u : Tree} (free : CollisionFree (t.inputs ++ u.inputs)) (h : t.root = u.root) :
    t.input = u.input := by
  have hhash := congrArg Hash256.bytes h
  rw [root_bytes, root_bytes] at hhash
  exact free _ (List.mem_append_left _ t.input_mem) _ (List.mem_append_right _ u.input_mem) hhash

theorem alike_of_root_eq {t u : Tree} (free : CollisionFree (t.inputs ++ u.inputs))
    (h : t.root = u.root) : t.Alike u := by
  induction t generalizing u with
  | leaf s =>
    have hin := input_eq free h
    cases u with
    | leaf s' =>
      have hs := leafPreimage_injective (taggedInput_inj.mp hin).2
      rw [hs]
      exact .leaf s'
    | branch l' r' => exact absurd (taggedInput_inj.mp hin).1 leafTag_ne_branchTag
  | branch l r ihl ihr =>
    have hin := input_eq free h
    cases u with
    | leaf s' => exact absurd (taggedInput_inj.mp hin).1.symm leafTag_ne_branchTag
    | branch l' r' =>
      have hl : l.inputs ⊆ (branch l r).inputs := by simp [inputs]
      have hr : r.inputs ⊆ (branch l r).inputs := by simp [inputs]
      have hl' : l'.inputs ⊆ (branch l' r').inputs := by simp [inputs]
      have hr' : r'.inputs ⊆ (branch l' r').inputs := by simp [inputs]
      have hsub : ∀ {v w : Tree}, v.inputs ⊆ (branch l r).inputs → w.inputs ⊆ (branch l' r').inputs →
          CollisionFree (v.inputs ++ w.inputs) := by
        intro v w hv hw
        apply free.subset
        exact List.append_subset.mpr ⟨List.subset_append_of_subset_left _ hv,
          List.subset_append_of_subset_right _ hw⟩
      rcases branchPreimage_inj (taggedInput_inj.mp hin).2 with ⟨hll, hrr⟩ | ⟨hlr, hrl⟩
      · exact .straight (ihl (hsub hl hl') hll) (ihr (hsub hr hr') hrr)
      · exact .crossed (ihl (hsub hl hr') hlr) (ihr (hsub hr hl') hrl)

theorem Alike.root_eq {t u : Tree} (h : t.Alike u) : t.root = u.root := by
  induction h with
  | leaf s => rfl
  | straight _ _ ihl ihr => rw [root, root, ihl, ihr]
  | crossed _ _ ihl ihr =>
    rw [root, root, ihl, ihr]
    simp only [branchHash, branchPreimage_comm]

/-- Roots tell trees apart up to the order of children. -/
theorem root_eq_iff {t u : Tree} (free : CollisionFree (t.inputs ++ u.inputs)) :
    t.root = u.root ↔ t.Alike u :=
  ⟨alike_of_root_eq free, Alike.root_eq⟩

end Tree

end Countersign.Taproot
