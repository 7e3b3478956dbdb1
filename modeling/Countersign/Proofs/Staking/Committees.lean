import Countersign.Proofs.Outcome
import Countersign.Proofs.Staking.Keys

/-!
# Which committees make leaves

A multisignature is made of a committee when its quorum can be met and no key of it repeats. The terms
of a stake make leaves when this holds of the covenant committee and of the finality providers, and the
lock time has no say in it.
-/

set_option autoImplicit false

namespace Countersign

open Outcome

namespace Leaves

/-- Some members can meet the quorum, and every member is a key of its own. -/
structure Quorate (keys : List XOnlyKey) (quorum : UInt32) : Prop where
  pos : quorum ≠ 0
  le : quorum.toNat ≤ keys.length
  nodup : keys.Nodup

theorem ascending_sortKeys_iff (keys : List XOnlyKey) : Ascending (sortKeys keys) ↔ keys.Nodup := by
  rw [← (sortKeys_perm keys).nodup_iff]
  constructor
  · exact Ascending.nodup
  · intro h
    exact ((sortKeys_pairwise keys).and h).imp fun hab => bytes_lt_of_le_of_ne hab.1 hab.2

theorem repeated?_sortKeys (keys : List XOnlyKey) :
    repeated? (sortKeys keys) = none ↔ keys.Nodup := by
  rw [repeated?_eq_none_iff (sortKeys_pairwise keys), ascending_sortKeys_iff]

def committeeItems (keys : List XOnlyKey) (quorum : UInt32) (verify : Bool) : List Script.Item :=
  match keys with
  | [key] => singleKey key verify
  | _ => tally (sortKeys keys) quorum verify

theorem multisig_eq_ok {group : KeyGroup} {keys : List XOnlyKey} {quorum : UInt32} {verify : Bool}
    {items : List Script.Item} :
    multisig group keys quorum verify = .ok items ↔
      Quorate keys quorum ∧ items = committeeItems keys quorum verify := by
  unfold multisig
  by_cases hq : quorum = 0 ∨ quorum.toNat > keys.length
  · have hn : ¬ Quorate keys quorum := by
      intro h
      obtain ⟨hp, hl, -⟩ := h
      rcases hq with h | h
      · exact hp h
      · omega
    by_cases he : keys.isEmpty
    · simp [hq, he, hn]
    · simp [hq, he, hn]
  · obtain ⟨hp, hl⟩ := not_or.mp hq
    rw [if_neg hq]
    rcases keys with _ | ⟨a, _ | ⟨b, r⟩⟩
    · simp only [List.length_nil, gt_iff_lt, not_lt, Nat.le_zero] at hl
      exact absurd (UInt32.toNat_inj.mp hl) hp
    · have hk : Quorate [a] quorum := ⟨hp, by omega, List.nodup_singleton a⟩
      simp [hk, committeeItems, eq_comm]
    · cases hr : repeated? (sortKeys (a :: b :: r)) with
      | some k =>
        have hn : ¬ Quorate (a :: b :: r) quorum := fun h => by
          rw [(repeated?_sortKeys _).mpr h.nodup] at hr
          cases hr
        simp [hr, hn]
      | none =>
        have hk : Quorate (a :: b :: r) quorum := ⟨hp, by omega, (repeated?_sortKeys _).mp hr⟩
        simp [hr, hk, committeeItems, eq_comm]

theorem committeeItems_cases {keys : List XOnlyKey} {quorum : UInt32} (hk : Quorate keys quorum) :
    (∃ k, sortKeys keys = [k] ∧ quorum.toNat = 1 ∧
        ∀ verify, committeeItems keys quorum verify = singleKey k verify) ∨
      ∃ first rest, sortKeys keys = first :: rest ∧
        ∀ verify, committeeItems keys quorum verify = tally (first :: rest) quorum verify := by
  have hle := hk.le
  have hpos : quorum.toNat ≠ 0 := fun h => hk.pos (UInt32.toNat_inj.mp h)
  rcases keys with _ | ⟨a, _ | ⟨b, r⟩⟩
  · simp at hle
    exact absurd (UInt32.toNat_inj.mp hle) hk.pos
  · refine Or.inl ⟨a, List.perm_singleton.mp (sortKeys_perm [a]), ?_, fun verify => rfl⟩
    simp only [List.length_singleton] at hle
    omega
  · cases hs : sortKeys (a :: b :: r) with
    | nil => exact absurd (hs ▸ sortKeys_perm (a :: b :: r)).symm.eq_nil (by simp)
    | cons first rest =>
      exact Or.inr ⟨first, rest, rfl, fun verify => by rw [committeeItems, hs]; simp⟩

theorem quorate_singleton (key : XOnlyKey) : Quorate [key] 1 :=
  ⟨by decide, by simp, List.nodup_singleton key⟩

end Leaves

namespace Terms

open Leaves

/-- Leaves with this lock time, whatever became of the rest of the terms. -/
def scripts (t : Terms) : Leaves where
  timelock := timelockScript t.staker t.lockTime
  unbonding := Script.ofItems (singleKey t.staker true ++ committeeItems t.covenants t.quorum false)
  slashing := Script.ofItems (singleKey t.staker true ++
    committeeItems t.finalityProviders 1 true ++ committeeItems t.covenants t.quorum false)

theorem leaves_eq_ok {t : Terms} {l : Leaves} :
    t.leaves = .ok l ↔
      Quorate t.covenants t.quorum ∧ Quorate t.finalityProviders 1 ∧ l = t.scripts := by
  simp only [leaves, guard_eq_ok, bind_eq_ok, multisig_eq_ok, pure_eq_ok]
  constructor
  · intro h
    obtain ⟨-, committee, ⟨hc, rfl⟩, providers, ⟨hf, rfl⟩, rfl⟩ := h
    exact ⟨hc, hf, rfl⟩
  · intro h
    obtain ⟨hc, hf, rfl⟩ := h
    have hne : ¬ t.finalityProviders.isEmpty = true := by
      intro h
      have hl := hf.le
      simp [List.isEmpty_iff.mp h] at hl
    exact ⟨hne, _, ⟨hc, rfl⟩, _, ⟨hf, rfl⟩, rfl⟩

theorem leaves_of_quorate {t : Terms} (committee : Quorate t.covenants t.quorum)
    {finalityProvider : XOnlyKey} (provider : t.finalityProviders = [finalityProvider]) :
    t.leaves = .ok t.scripts := by
  apply leaves_eq_ok.mpr
  rw [provider]
  exact ⟨committee, quorate_singleton finalityProvider, rfl⟩

end Terms

end Countersign
