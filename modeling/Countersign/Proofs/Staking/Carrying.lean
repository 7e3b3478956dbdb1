import Countersign.Proofs.Staking.KeyOrder
import Countersign.Proofs.Staking.Recogniser

/-!
# Planned stakes among other outputs

A stake is planned as two outputs, and whoever funds it may put them anywhere in a transaction, in either
order. The stake that is recognised there is the one that was planned, at the places where its outputs
stand, for every member of the committee alike. Nothing can be added to it: a second announcement, or a
second payment of the same script, wherever it is put, leaves no stake at all.
-/

set_option autoImplicit false

namespace Countersign

namespace Stake

section Insertion

def moved (k i : ℕ) : ℕ := if i < k then i else i + 1

theorem moved_ne (k i : ℕ) : moved k i ≠ k := by
  unfold moved
  split_ifs
  · omega
  · omega

variable {outputs : List TxOut} {property : TxOut → Prop} {o other : TxOut} {i k : ℕ}

theorem getElem?_moved : (outputs.insertIdx k other)[moved k i]? = outputs[i]? := by
  unfold moved
  split_ifs with h
  · exact List.getElem?_insertIdx_of_lt h
  · rw [List.getElem?_insertIdx_of_gt (by omega), Nat.add_sub_cancel]

theorem getElem?_insertIdx_cases {n : ℕ} (here : (outputs.insertIdx k other)[n]? = some o) :
    (n = k ∧ o = other) ∨ ∃ i, n = moved k i ∧ outputs[i]? = some o := by
  rcases Nat.lt_trichotomy n k with hlt | rfl | hgt
  · rw [List.getElem?_insertIdx_of_lt hlt] at here
    exact Or.inr ⟨n, by rw [moved, if_pos hlt], here⟩
  · rw [List.getElem?_insertIdx_self] at here
    split_ifs at here
    exact Or.inl ⟨rfl, (Option.some.inj here).symm⟩
  · rw [List.getElem?_insertIdx_of_gt hgt] at here
    exact Or.inr ⟨n - 1, by rw [moved, if_neg (by omega)]; omega, here⟩

variable (sole : Sole outputs property o i)

include sole

theorem Sole.insertIdx (foreign : ¬ property other) :
    Sole (outputs.insertIdx k other) property o (moved k i) := by
  refine ⟨getElem?_moved.trans sole.here, sole.holds, ?_⟩
  intro n q hn hq
  rcases getElem?_insertIdx_cases hn with ⟨-, rfl⟩ | ⟨m, rfl, hm⟩
  · exact absurd hq foreign
  · rw [sole.nowhereElse m q hm hq]

theorem Sole.repeated_insertIdx (again : property other) (within : k ≤ outputs.length) :
    Repeated (outputs.insertIdx k other) property := by
  refine ⟨k, moved k i, other, o, (moved_ne k i).symm, ?_, getElem?_moved.trans sole.here, again,
    sole.holds⟩
  rw [List.getElem?_insertIdx_self, if_pos within]

end Insertion

def paying (tx : Transaction) (k : ℕ) (o : TxOut) : Transaction :=
  { tx with outputs := tx.outputs.insertIdx k o }

section Additions

variable {tag : Bytes} {t : Terms} {finalityProvider : XOnlyKey} {value : Amount} {plan : Plan}
  {tx : Transaction} {i j k : ℕ} {o : TxOut}
  (planned : Stake.plan tag t finalityProvider value = .ok plan) (carried : plan.Carried tx.outputs i j)

include planned carried

theorem eligible_paying : Eligible (paying tx k o) tag := by
  obtain ⟨mark, hm, -⟩ := plan_announcement planned
  constructor
  · exact carried.two_le.trans List.length_le_length_insertIdx
  · rw [← hm, mark.length_eq]

theorem lockable_paying (foreign : ¬ IsAnnouncement o) :
    Lockable (paying tx k o) tag t.covenants t.quorum plan.announcement plan.announcement.txOut (moved k j)
      { plan.staking with value := 0 } := by
  obtain ⟨mark, hm, ha⟩ := plan_announcement planned
  have hversion : plan.announcement.version = 0 := by rw [ha]
  have hsole := (carried.sole_announcement hversion).insertIdx (k := k) foreign
  rw [isAnnouncement_eq_announcing] at hsole
  refine ⟨⟨eligible_paying planned carried, Announcement.announces_script hversion, hsole⟩,
    by rw [ha, hm], ?_⟩
  rw [show announcedTerms plan.announcement t.covenants t.quorum =
    { t with finalityProviders := [finalityProvider] } by rw [ha]; rfl]
  exact LockedOutput.build_revalue (plan_staking planned) 0

theorem announced_again (within : k ≤ tx.outputs.length) (again : IsAnnouncement o) :
    recognise (paying tx k o) tag t.covenants t.quorum = .error .multipleOpReturns := by
  obtain ⟨mark, -, ha⟩ := plan_announcement planned
  have hrepeated := (carried.sole_announcement (by rw [ha])).repeated_insertIdx again within
  rw [isAnnouncement_eq_announcing] at hrepeated
  exact recognise_eq_error.mpr (.announcedAgain (eligible_paying planned carried) hrepeated)

theorem paid_again (within : k ≤ tx.outputs.length) (again : Pays plan.staking.script o) :
    recognise (paying tx k o) tag t.covenants t.quorum = .error .multipleStakingOutputs := by
  have hforeign : ¬ IsAnnouncement o := by
    rw [isAnnouncement_eq_announcing]
    exact not_announcing_of_pays again
  exact recognise_eq_error.mpr (.paidAgain (lockable_paying planned carried hforeign)
    (carried.sole_payment.repeated_insertIdx again within))

end Additions

section Marked

variable {mark : Tag} {t : Terms} {finalityProvider : XOnlyKey} {value : Amount} {plan : Plan}
  (planned : Stake.plan mark.bytes t finalityProvider value = .ok plan)

include planned

theorem announcement_eq : plan.announcement = ⟨mark, 0, t.staker, finalityProvider, t.lockTime⟩ := by
  obtain ⟨staking, other, -, hm, rfl⟩ := plan_eq_ok.mp planned
  rw [Tag.ofBytes?_bytes] at hm
  cases hm
  rfl

/-- A transaction that carries a plan is the stake that was planned, to everyone who lists the same
committee, and one announcement or payment more makes it none. -/
theorem carried_stake_recognised {tx : Transaction} {i j : ℕ} (carried : plan.Carried tx.outputs i j)
    {covenants : List XOnlyKey} (listed : covenants.Perm t.covenants) :
    plan.staking.txOut.value = value ∧
    recognise tx mark.bytes covenants t.quorum =
      .ok ⟨plan.staking.txOut, i, plan.announcement.txOut, j,
        ⟨mark, 0, t.staker, finalityProvider, t.lockTime⟩⟩ ∧
    (∀ k ≤ tx.outputs.length, ∀ o, IsAnnouncement o →
      recognise (paying tx k o) mark.bytes covenants t.quorum = .error .multipleOpReturns) ∧
    ∀ k ≤ tx.outputs.length, ∀ o, Pays plan.staking.script o →
      recognise (paying tx k o) mark.bytes covenants t.quorum = .error .multipleStakingOutputs := by
  simp only [recognise_perm listed]
  refine ⟨LockedOutput.build_value (plan_staking planned), ?_,
    fun k within o => announced_again planned carried within,
    fun k within o => paid_again planned carried within⟩
  rw [recognise_carried planned carried, announcement_eq planned]

end Marked

end Stake

namespace Sample

open Stake

def mark : Tag := ⟨[1, 2, 3, 4], rfl⟩

def promise : Announcement := ⟨mark, 0, staker, provider, 1000⟩

def promised : Plan := ⟨staking 100000, promise, ⟨2, [], [(staking 100000).txOut, promise.txOut], 0⟩⟩

theorem promised_planned : Stake.plan mark.bytes (terms 1000) provider 100000 = .ok promised :=
  plan_eq_ok.mpr ⟨staking 100000, mark, staking_built 100000, mark.ofBytes?_bytes, rfl⟩

/-- The announcement comes first, and another payment stands between the two. -/
def funded : Transaction := ⟨2, [], [promise.txOut, ⟨5000, [0x51]⟩, (staking 100000).txOut], 0⟩

theorem funded_carried : promised.Carried funded.outputs 2 0 := by
  refine ⟨rfl, rfl, ?_⟩
  intro k o here apart apart'
  have between : k = 1 := by
    obtain ⟨hk, -⟩ := List.getElem?_eq_some_iff.mp here
    simp only [funded, List.length_cons, List.length_nil] at hk
    omega
  rw [between] at here
  cases here
  constructor
  · rintro ⟨a, ha⟩
    cases ha
  · intro pays
    cases pays

end Sample

namespace Stake

open Sample in
theorem sample_carried_stake :
    recognise funded mark.bytes [third, first, second] 2 =
        .ok ⟨(staking 100000).txOut, 2, promise.txOut, 0, promise⟩ ∧
      recognise (paying funded 1 promise.txOut) mark.bytes [third, first, second] 2 =
        .error .multipleOpReturns ∧
      recognise (paying funded 3 (staking 7).txOut) mark.bytes [third, first, second] 2 =
        .error .multipleStakingOutputs := by
  have listed : [third, first, second].Perm committee := by decide +kernel
  obtain ⟨-, recognised, announced, paid⟩ :=
    carried_stake_recognised promised_planned funded_carried listed
  exact ⟨recognised, announced 1 (by decide) _ ⟨promise, Announcement.ofTxOut_txOut rfl⟩,
    paid 3 (by decide) _ rfl⟩

end Stake

end Countersign
