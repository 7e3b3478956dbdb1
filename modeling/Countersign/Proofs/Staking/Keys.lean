import Mathlib.Data.List.Nodup
import Mathlib.Data.List.Sort
import Countersign.Proofs.Bytes
import Countersign.Staking.Leaves

/-!
# Keys in byte order

A committee's keys are sorted by the comparison of byte strings. A sorted list in which no key
repeats is the only strictly ascending arrangement of its keys.
-/

set_option autoImplicit false

namespace Countersign

namespace Leaves

def Ascending (keys : List XOnlyKey) : Prop := keys.Pairwise fun a b => a.bytes < b.bytes

theorem Ascending.nodup {keys : List XOnlyKey} (h : Ascending keys) : keys.Nodup := by
  apply h.imp
  intro a b hab heq
  subst heq
  exact List.lt_irrefl _ hab

theorem sortKeys_perm (keys : List XOnlyKey) : (sortKeys keys).Perm keys :=
  List.mergeSort_perm keys _

theorem sortKeys_pairwise (keys : List XOnlyKey) :
    (sortKeys keys).Pairwise fun a b => a.bytes ≤ b.bytes := by
  have trans : ∀ a b c : XOnlyKey, Bytes.le a.bytes b.bytes → Bytes.le b.bytes c.bytes →
      Bytes.le a.bytes c.bytes := by
    intro a b c hab hbc
    rw [Bytes.le_iff] at hab hbc ⊢
    exact List.le_trans hab hbc
  have total : ∀ a b : XOnlyKey, Bytes.le a.bytes b.bytes || Bytes.le b.bytes a.bytes := by
    intro a b
    rw [Bool.or_eq_true, Bytes.le_iff, Bytes.le_iff]
    exact List.le_total a.bytes b.bytes
  have h := List.pairwise_mergeSort trans total keys
  simpa only [Bytes.le_iff, sortKeys] using h

theorem bytes_lt_of_le_of_ne {a b : XOnlyKey} (h : a.bytes ≤ b.bytes) (hne : a ≠ b) :
    a.bytes < b.bytes := by
  apply List.not_le.mp
  intro hba
  exact hne (XOnlyKey.bytes_injective (List.le_antisymm h hba))

/-- In a sorted list a repeated key stands next to its copy, so none is found only if all differ. -/
theorem repeated?_eq_none_iff {keys : List XOnlyKey}
    (h : keys.Pairwise fun a b => a.bytes ≤ b.bytes) : repeated? keys = none ↔ Ascending keys := by
  induction keys with
  | nil => simp [repeated?, Ascending]
  | cons a r ih =>
    cases r with
    | nil => simp [repeated?, Ascending]
    | cons b r =>
      obtain ⟨ha, hr⟩ := List.pairwise_cons.mp h
      have hab := ha b List.mem_cons_self
      by_cases he : a = b
      · subst he
        simp [repeated?, Ascending, List.lt_irrefl]
      · have hlt := bytes_lt_of_le_of_ne hab he
        rw [repeated?, if_neg he, ih hr]
        constructor
        · intro hs
          refine List.pairwise_cons.mpr ⟨?_, hs⟩
          intro c hc
          rcases List.mem_cons.mp hc with rfl | hc
          · exact hlt
          · have hbc := (List.pairwise_cons.mp hr).1 c hc
            exact List.not_le.mp fun hca => List.not_le.mpr hlt (List.le_trans hbc hca)
        · intro hs
          exact (List.pairwise_cons.mp hs).2

theorem eq_of_ascending {a b : List XOnlyKey} (ha : Ascending a) (hb : Ascending b)
    (h : a.Perm b) : a = b := by
  apply List.Perm.eq_of_pairwise _ ha hb h
  rintro x y - - hxy hyx
  exact absurd (List.lt_trans hxy hyx) (List.lt_irrefl _)

theorem sortKeys_eq_of_perm {a b : List XOnlyKey} (h : a.Perm b) : sortKeys a = sortKeys b := by
  have hp := (sortKeys_perm a).trans (h.trans (sortKeys_perm b).symm)
  apply List.Perm.eq_of_pairwise _ (sortKeys_pairwise a) (sortKeys_pairwise b) hp
  rintro x y - - hxy hyx
  exact XOnlyKey.bytes_injective (List.le_antisymm hxy hyx)

end Leaves

end Countersign
