import Mathlib.Data.List.Nodup
import Mathlib.Data.List.Range
import Countersign.Proofs.Staking.Announcing
import Countersign.Proofs.Staking.Locking
import Countersign.Staking.Stake

/-!
# Which transactions are stakes

Recognition looks for one announcement and one payment among the numbered outputs of a transaction.
`Sole` says that an output with some property stands at one place and nowhere else, which is what
both searches come down to. A transaction that carries the outputs of a plan among others is
recognised as the stake that was planned.
-/

set_option autoImplicit false

namespace Countersign

open Outcome

theorem filterMap_eq_singleton_iff {α β : Type} {g : α → Option β} {l : List α} (hl : l.Nodup)
    {y : β} : l.filterMap g = [y] ↔ ∃ a ∈ l, g a = some y ∧ ∀ b ∈ l, g b ≠ none → b = a := by
  constructor
  · intro h
    obtain ⟨s, a, t, rfl, hs, ha, ht⟩ := List.filterMap_eq_cons_iff.mp h
    rw [List.filterMap_eq_nil_iff] at ht
    refine ⟨a, by simp, ha, ?_⟩
    intro b hb hne
    rcases List.mem_append.mp hb with hb | hb
    · exact absurd (hs b hb) hne
    · exact (List.mem_cons.mp hb).resolve_right fun hb => hne (ht b hb)
  · intro h
    obtain ⟨a, hm, ha, hb⟩ := h
    obtain ⟨s, t, rfl⟩ := List.append_of_mem hm
    obtain ⟨hn, -⟩ := List.nodup_cons.mp (List.nodup_middle.mp hl)
    have hnone : ∀ r : List α, r ⊆ s ++ t → r.filterMap g = [] := by
      intro r hr
      apply List.filterMap_eq_nil_iff.mpr
      intro b hbr
      by_contra hne
      have hm : b ∈ s ++ a :: t := by
        have := hr hbr
        simp only [List.mem_append, List.mem_cons] at this ⊢
        tauto
      exact hn (hb b hm hne ▸ hr hbr)
    rw [List.filterMap_append, List.filterMap_cons, ha, hnone s (List.subset_append_left s t),
      hnone t (List.subset_append_right s t)]
    rfl

theorem zipIdx_nodup {α : Type} (l : List α) : l.zipIdx.Nodup := by
  apply List.Nodup.of_map Prod.snd
  rw [List.zipIdx_map_snd]
  exact List.nodup_range'

namespace Stake

/-- At this place stands an output with the property, and it is the only one. -/
structure Sole (outputs : List TxOut) (property : TxOut → Prop) (o : TxOut) (i : ℕ) : Prop where
  here : outputs[i]? = some o
  holds : property o
  nowhereElse : ∀ k other, outputs[k]? = some other → property other → k = i

def IsAnnouncement (o : TxOut) : Prop := ∃ a, Announcement.ofTxOut o = .ok a

def Pays (script : Script) (o : TxOut) : Prop := o.script = script

variable {outputs : List TxOut} {o : TxOut} {i : ℕ}

theorem announced_ne_none (o : TxOut) (i : ℕ) :
    (Announcement.ofTxOut o).toOption.map (·, o, i) ≠ none ↔ IsAnnouncement o := by
  cases h : Announcement.ofTxOut o with
  | error e => simp [Except.toOption, IsAnnouncement, h]
  | ok a => simp [Except.toOption, IsAnnouncement, h]

theorem announcements_eq_singleton {a : Announcement} :
    announcements outputs.zipIdx = [(a, o, i)] ↔
      Announcement.ofTxOut o = .ok a ∧ Sole outputs IsAnnouncement o i := by
  rw [announcements, filterMap_eq_singleton_iff (zipIdx_nodup outputs)]
  have hsome : ∀ (p : TxOut) (k : ℕ) (y : Announcement × TxOut × ℕ),
      (Announcement.ofTxOut p).toOption.map (·, p, k) = some y ↔
        Announcement.ofTxOut p = .ok y.1 ∧ p = y.2.1 ∧ k = y.2.2 := by
    rintro p k ⟨b, q, j⟩
    cases h : Announcement.ofTxOut p with
    | error e => simp [Except.toOption]
    | ok c => simp [Except.toOption]
  simp only [Prod.exists, Prod.forall, List.mk_mem_zipIdx_iff_getElem?, hsome,
    announced_ne_none, Prod.mk.injEq]
  constructor
  · intro h
    obtain ⟨p, k, hp, ⟨ha, rfl, rfl⟩, hu⟩ := h
    exact ⟨ha, hp, ⟨a, ha⟩, fun j q hq hj => (hu q j hq hj).2⟩
  · intro h
    obtain ⟨ha, hp, -, hu⟩ := h
    refine ⟨o, i, hp, ⟨ha, rfl, rfl⟩, ?_⟩
    intro q j hq hj
    obtain rfl := hu j q hq hj
    rw [hp] at hq
    exact ⟨(Option.some.inj hq).symm, rfl⟩

theorem soleAnnouncement_eq_ok {a : Announcement} :
    soleAnnouncement outputs.zipIdx = .ok (a, o, i) ↔
      Announcement.ofTxOut o = .ok a ∧ Sole outputs IsAnnouncement o i := by
  rw [← announcements_eq_singleton, soleAnnouncement]
  rcases announcements outputs.zipIdx with _ | ⟨x, _ | ⟨y, r⟩⟩
  · simp
  · simp
  · simp

theorem payments_eq_singleton {script : Script} :
    (outputs.zipIdx.filter fun (o, _) => o.script = script) = [(o, i)] ↔
      Sole outputs (Pays script) o i := by
  rw [← List.filterMap_eq_filter, filterMap_eq_singleton_iff (zipIdx_nodup outputs)]
  simp only [Prod.exists, Prod.forall, List.mk_mem_zipIdx_iff_getElem?, Option.guard_eq_some_iff,
    ne_eq, Option.guard_eq_none_iff, Prod.mk.injEq, decide_eq_true_eq, Bool.not_eq_false]
  constructor
  · intro h
    obtain ⟨p, k, hp, ⟨⟨rfl, rfl⟩, hs⟩, hu⟩ := h
    exact ⟨hp, hs, fun j q hq hj => (hu q j hq hj).2⟩
  · intro h
    obtain ⟨hp, hs, hu⟩ := h
    refine ⟨o, i, hp, ⟨⟨rfl, rfl⟩, hs⟩, ?_⟩
    intro q j hq hj
    obtain rfl := hu j q hq hj
    rw [hp] at hq
    exact ⟨(Option.some.inj hq).symm, rfl⟩

theorem solePayment_eq_ok {script : Script} :
    solePayment outputs.zipIdx script = .ok (o, i) ↔ Sole outputs (Pays script) o i := by
  rw [← payments_eq_singleton]
  unfold solePayment
  split
  · rename_i h
    simp [h]
  · rename_i x h
    simp [h]
  · rename_i hn hs
    simp only [reduceCtorEq, false_iff]
    exact hs _

theorem recognise_eq_ok {t : Transaction} {tag : Bytes} {covenants : List XOnlyKey} {quorum : UInt32}
    {stake : Stake} :
    recognise t tag covenants quorum = .ok stake ↔
      2 ≤ t.outputs.length ∧ tag.length = 4 ∧
      Announcement.ofTxOut stake.announcementOutput = .ok stake.announcement ∧
      Sole t.outputs IsAnnouncement stake.announcementOutput stake.announcementIndex ∧
      stake.announcement.tag.bytes = tag ∧
      ∃ locked, LockedOutput.build .staking (announcedTerms stake.announcement covenants quorum) 0 =
          .ok locked ∧
        Sole t.outputs (Pays locked.script) stake.stakingOutput stake.stakingIndex := by
  simp only [recognise, guard_eq_ok, bind_eq_ok, pure_eq_ok, Prod.exists, soleAnnouncement_eq_ok,
    solePayment_eq_ok, ne_eq, Decidable.not_not, Nat.not_lt]
  constructor
  · intro h
    obtain ⟨hl, ht, a, o, i, ⟨ha, hs⟩, htag, locked, hb, p, j, hp, rfl⟩ := h
    exact ⟨hl, ht, ha, hs, htag, locked, hb, hp⟩
  · intro h
    obtain ⟨hl, ht, ha, hs, htag, locked, hb, hp⟩ := h
    exact ⟨hl, ht, _, _, _, ⟨ha, hs⟩, htag, locked, hb, _, _, hp, rfl⟩

section Plans

variable {tag : Bytes} {t : Terms} {finalityProvider : XOnlyKey} {value : Amount} {plan : Plan}

theorem plan_eq_ok :
    Stake.plan tag t finalityProvider value = .ok plan ↔ ∃ staking mark,
      LockedOutput.build .staking { t with finalityProviders := [finalityProvider] } value =
        .ok staking ∧
      Tag.ofBytes? tag = some mark ∧
      plan = ⟨staking, ⟨mark, 0, t.staker, finalityProvider, t.lockTime⟩,
        ⟨2, [], [staking.txOut, Announcement.txOut ⟨mark, 0, t.staker, finalityProvider, t.lockTime⟩],
          0⟩⟩ := by
  simp only [Stake.plan, bind_eq_ok, pure_eq_ok]
  constructor
  · intro h
    obtain ⟨staking, hb, a, ha, rfl⟩ := h
    unfold Announcement.create at ha
    split at ha
    · rename_i mark hm
      cases ha
      exact ⟨staking, mark, hb, hm, rfl⟩
    · cases ha
  · intro h
    obtain ⟨staking, mark, hb, hm, rfl⟩ := h
    exact ⟨staking, hb, _, by rw [Announcement.create, hm], rfl⟩

theorem plan_error {mark : Tag} {leaves : Leaves} {e : StakingError}
    (hl : Terms.leaves { t with finalityProviders := [finalityProvider] } = .ok leaves)
    (h : Stake.plan mark.bytes t finalityProvider value = .error e) : e = .untweakable := by
  unfold Stake.plan at h
  cases hb : LockedOutput.build .staking { t with finalityProviders := [finalityProvider] } value with
  | error d =>
    rw [hb] at h
    cases h
    exact LockedOutput.build_error hl hb
  | ok staking =>
    rw [hb, Announcement.create, Tag.ofBytes?_bytes] at h
    cases h

/-- What stands around the two planned outputs in a staking transaction. -/
structure Surroundings where
  inputs : List TxIn
  before : List TxOut
  between : List TxOut
  after : List TxOut

def Plan.within (plan : Plan) (w : Surroundings) : Transaction :=
  { plan.transaction with
    inputs := w.inputs
    outputs := w.before ++ plan.staking.txOut :: (w.between ++ plan.announcement.txOut :: w.after) }

/-- Nothing around the plan announces anything or pays the planned script. -/
def Surroundings.Foreign (w : Surroundings) (plan : Plan) : Prop :=
  ∀ o ∈ w.before ++ w.between ++ w.after, ¬ IsAnnouncement o ∧ ¬ Pays plan.staking.script o

def Plan.stake (plan : Plan) (w : Surroundings) : Stake where
  stakingOutput := plan.staking.txOut
  stakingIndex := w.before.length
  announcementOutput := plan.announcement.txOut
  announcementIndex := (w.before ++ plan.staking.txOut :: w.between).length
  announcement := plan.announcement

theorem not_isAnnouncement_txOut (locked : LockedOutput) : ¬ IsAnnouncement locked.txOut := by
  intro h
  obtain ⟨a, ha⟩ := h
  obtain ⟨-, hs⟩ := Announcement.ofScript_eq_ok.mp ha
  have hh := congrArg List.head? hs
  simp [LockedOutput.txOut, LockedOutput.script, Script.taproot, Announcement.script] at hh

theorem not_pays_txOut (a : Announcement) (locked : LockedOutput) : ¬ Pays locked.script a.txOut := by
  intro hs
  have hh := congrArg List.head? hs
  simp [LockedOutput.script, Script.taproot, Announcement.script, Announcement.txOut] at hh

theorem plan_staking (planned : Stake.plan tag t finalityProvider value = .ok plan) :
    LockedOutput.build .staking { t with finalityProviders := [finalityProvider] } value =
      .ok plan.staking := by
  obtain ⟨staking, mark, hb, -, rfl⟩ := plan_eq_ok.mp planned
  exact hb

theorem plan_announcement (planned : Stake.plan tag t finalityProvider value = .ok plan) :
    ∃ mark : Tag, mark.bytes = tag ∧
      plan.announcement = ⟨mark, 0, t.staker, finalityProvider, t.lockTime⟩ := by
  obtain ⟨staking, mark, -, hm, rfl⟩ := plan_eq_ok.mp planned
  exact ⟨mark, Tag.ofBytes?_eq_some.mp hm, rfl⟩

/-- The two planned outputs stand at these places, and no other output has to do with the plan. -/
structure Plan.Carried (plan : Plan) (outputs : List TxOut) (i j : ℕ) : Prop where
  staking : outputs[i]? = some plan.staking.txOut
  announcement : outputs[j]? = some plan.announcement.txOut
  foreign : ∀ k o, outputs[k]? = some o → k ≠ i → k ≠ j →
    ¬ IsAnnouncement o ∧ ¬ Pays plan.staking.script o

namespace Plan.Carried

variable {j : ℕ} (carried : plan.Carried outputs i j)

include carried

theorem sole_announcement (version : plan.announcement.version = 0) :
    Sole outputs IsAnnouncement plan.announcement.txOut j := by
  refine ⟨carried.announcement, ⟨_, Announcement.ofTxOut_txOut version⟩, ?_⟩
  intro k other hk announces
  by_contra hj
  by_cases hi : k = i
  · rw [hi, carried.staking] at hk
    cases hk
    exact not_isAnnouncement_txOut _ announces
  · exact (carried.foreign k other hk hi hj).1 announces

theorem sole_payment : Sole outputs (Pays plan.staking.script) plan.staking.txOut i := by
  refine ⟨carried.staking, rfl, ?_⟩
  intro k other hk pays
  by_contra hi
  by_cases hj : k = j
  · rw [hj, carried.announcement] at hk
    cases hk
    exact not_pays_txOut _ _ pays
  · exact (carried.foreign k other hk hi hj).2 pays

theorem two_le : 2 ≤ outputs.length := by
  obtain ⟨hi, -⟩ := List.getElem?_eq_some_iff.mp carried.staking
  obtain ⟨hj, -⟩ := List.getElem?_eq_some_iff.mp carried.announcement
  have apart : i ≠ j := by
    rintro rfl
    have same := carried.staking.symm.trans carried.announcement
    refine not_pays_txOut plan.announcement plan.staking ?_
    rw [← Option.some.inj same]
    rfl
  omega

end Plan.Carried

/-- Wherever a transaction carries the outputs of a plan, the stake that was planned is recognised. -/
theorem recognise_carried (planned : Stake.plan tag t finalityProvider value = .ok plan)
    {tx : Transaction} {j : ℕ} (carried : plan.Carried tx.outputs i j) :
    recognise tx tag t.covenants t.quorum =
      .ok ⟨plan.staking.txOut, i, plan.announcement.txOut, j, plan.announcement⟩ := by
  obtain ⟨mark, hm, ha⟩ := plan_announcement planned
  have hversion : plan.announcement.version = 0 := by rw [ha]
  have hterms : announcedTerms plan.announcement t.covenants t.quorum =
      { t with finalityProviders := [finalityProvider] } := by rw [ha]; rfl
  refine recognise_eq_ok.mpr ⟨carried.two_le, by rw [← hm, mark.length_eq],
    Announcement.ofTxOut_txOut hversion, carried.sole_announcement hversion, by rw [ha, hm],
    { plan.staking with value := 0 }, ?_, carried.sole_payment⟩
  rw [hterms]
  exact LockedOutput.build_revalue (plan_staking planned) 0

section Around

variable {w : Surroundings}

theorem getElem?_beside {a o : TxOut} {before after : List TxOut} {k : ℕ}
    (here : (before ++ a :: after)[k]? = some o) (apart : k ≠ before.length) :
    o ∈ before ∨ ∃ m, k = before.length + 1 + m ∧ after[m]? = some o := by
  rcases Nat.lt_or_gt_of_ne apart with hlt | hgt
  · rw [List.getElem?_append_left hlt] at here
    exact Or.inl (List.mem_of_getElem? here)
  · obtain ⟨m, rfl⟩ := Nat.exists_eq_add_of_lt hgt
    rw [List.getElem?_append_right (by omega),
      show before.length + m + 1 - before.length = m + 1 by omega, List.getElem?_cons_succ] at here
    exact Or.inr ⟨m, by omega, here⟩

theorem carried_within (foreign : w.Foreign plan) :
    plan.Carried (plan.within w).outputs w.before.length
      (w.before ++ plan.staking.txOut :: w.between).length := by
  refine ⟨by simp [Plan.within], ?_, ?_⟩
  · simp [Plan.within]
  · intro k o hk hi hj
    apply foreign o
    rw [List.append_assoc, List.mem_append, List.mem_append]
    rcases getElem?_beside hk hi with h | ⟨m, rfl, h⟩
    · exact Or.inl h
    · rw [List.length_append, List.length_cons] at hj
      rcases getElem?_beside h (by omega) with h | ⟨n, -, h⟩
      · exact Or.inr (Or.inl h)
      · exact Or.inr (Or.inr (List.mem_of_getElem? h))

theorem recognise_within (foreign : w.Foreign plan)
    (planned : Stake.plan tag t finalityProvider value = .ok plan) :
    recognise (plan.within w) tag t.covenants t.quorum =
      .ok (plan.stake w) :=
  recognise_carried planned (carried_within foreign)

end Around

end Plans

end Stake

end Countersign
