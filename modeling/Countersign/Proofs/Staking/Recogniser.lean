import Mathlib.Tactic.Push
import Countersign.Proofs.Staking.Recognition

/-!
# What recognition answers

A search among outputs finds nothing, one output or several. Recognition goes through its conditions in
a fixed order, and each answer other than a stake names the first condition that does not hold: `Fault`
lists them in that order, each under the conditions before it. An output that is not written as an
announcement to the byte is as good as any other output.
-/

set_option autoImplicit false

namespace Countersign.Stake

open Outcome

section Search

variable {outputs : List TxOut} {property : TxOut → Prop}

def Absent (outputs : List TxOut) (property : TxOut → Prop) : Prop := ∀ o ∈ outputs, ¬ property o

def Repeated (outputs : List TxOut) (property : TxOut → Prop) : Prop :=
  ∃ (i j : ℕ) (o p : TxOut), i ≠ j ∧ outputs[i]? = some o ∧ outputs[j]? = some p ∧ property o ∧
    property p

theorem absent_iff_getElem? :
    Absent outputs property ↔ ∀ (o : TxOut) (i : ℕ), outputs[i]? = some o → ¬ property o := by
  constructor
  · intro h o i hi
    exact h o (List.mem_of_getElem? hi)
  · intro h o hm
    obtain ⟨i, hi⟩ := List.getElem?_of_mem hm
    exact h o i hi

theorem search_cases (outputs : List TxOut) (property : TxOut → Prop) :
    Absent outputs property ∨ (∃ o i, Sole outputs property o i) ∨ Repeated outputs property := by
  by_cases h : ∃ (o : TxOut) (i : ℕ), outputs[i]? = some o ∧ property o
  · obtain ⟨o, i, ho, hp⟩ := h
    by_cases hu : ∀ (k : ℕ) (other : TxOut), outputs[k]? = some other → property other → k = i
    · exact Or.inr (Or.inl ⟨o, i, ho, hp, hu⟩)
    · push Not at hu
      obtain ⟨k, other, hk, hother, hne⟩ := hu
      exact Or.inr (Or.inr ⟨k, i, other, o, hne, hk, ho, hother, hp⟩)
  · exact Or.inl (absent_iff_getElem?.mpr fun o i hi hp => h ⟨o, i, hi, hp⟩)

theorem Sole.not_absent {o : TxOut} {i : ℕ} (h : Sole outputs property o i) :
    ¬ Absent outputs property :=
  fun ha => ha o (List.mem_of_getElem? h.here) h.holds

theorem Sole.not_repeated {o : TxOut} {i : ℕ} (h : Sole outputs property o i) :
    ¬ Repeated outputs property := by
  rintro ⟨j, k, p, q, hne, hj, hk, hp, hq⟩
  exact hne ((h.nowhereElse j p hj hp).trans (h.nowhereElse k q hk hq).symm)

theorem Repeated.not_absent (h : Repeated outputs property) : ¬ Absent outputs property := by
  obtain ⟨i, -, o, -, -, hi, -, hp, -⟩ := h
  exact fun ha => ha o (List.mem_of_getElem? hi) hp

theorem search_eq_error {α : Type} {found : Except StakingError α} {missing multiple e : StakingError}
    (absent : Absent outputs property → found = .error missing)
    (sole : ∀ o i, Sole outputs property o i → ∃ a, found = .ok a)
    (repeated : Repeated outputs property → found = .error multiple) :
    found = .error e ↔
      (Absent outputs property ∧ missing = e) ∨ (Repeated outputs property ∧ multiple = e) := by
  rcases search_cases outputs property with h | ⟨o, i, h⟩ | h
  · have hr : ¬ Repeated outputs property := fun hr => hr.not_absent h
    simp [absent h, h, hr]
  · obtain ⟨a, ha⟩ := sole o i h
    simp [ha, h.not_absent, h.not_repeated]
  · simp [repeated h, h, h.not_absent]

theorem announcements_eq_nil :
    announcements outputs.zipIdx = [] ↔ Absent outputs IsAnnouncement := by
  have hnone : ∀ (o : TxOut) (i : ℕ),
      (Announcement.ofTxOut o).toOption.map (·, o, i) = none ↔ ¬ IsAnnouncement o := by
    intro o i
    rw [← announced_ne_none o i, ne_eq, not_not]
  simp only [announcements, List.filterMap_eq_nil_iff, Prod.forall, hnone,
    List.mk_mem_zipIdx_iff_getElem?]
  exact absent_iff_getElem?.symm

theorem soleAnnouncement_eq_error {e : StakingError} :
    soleAnnouncement outputs.zipIdx = .error e ↔
      (Absent outputs IsAnnouncement ∧ .missingOpReturn = e) ∨
        (Repeated outputs IsAnnouncement ∧ .multipleOpReturns = e) := by
  apply search_eq_error
  · intro h
    rw [soleAnnouncement, announcements_eq_nil.mpr h]
  · intro o i h
    obtain ⟨a, ha⟩ := h.holds
    exact ⟨_, soleAnnouncement_eq_ok.mpr ⟨ha, h⟩⟩
  · intro h
    unfold soleAnnouncement
    split
    · rename_i hl
      exact absurd (announcements_eq_nil.mp hl) h.not_absent
    · rename_i a hl
      exact absurd h (announcements_eq_singleton.mp hl).2.not_repeated
    · rfl

theorem payments_eq_nil {script : Script} :
    (outputs.zipIdx.filter fun (o, _) => o.script = script) = [] ↔ Absent outputs (Pays script) := by
  simp only [List.filter_eq_nil_iff, Prod.forall, List.mk_mem_zipIdx_iff_getElem?, decide_eq_true_eq]
  exact absent_iff_getElem?.symm

theorem solePayment_eq_error {script : Script} {e : StakingError} :
    solePayment outputs.zipIdx script = .error e ↔
      (Absent outputs (Pays script) ∧ .missingStakingOutput = e) ∨
        (Repeated outputs (Pays script) ∧ .multipleStakingOutputs = e) := by
  apply search_eq_error
  · intro h
    rw [solePayment, payments_eq_nil.mpr h]
  · intro o i h
    exact ⟨_, solePayment_eq_ok.mpr h⟩
  · intro h
    unfold solePayment
    split
    · rename_i hl
      exact absurd (payments_eq_nil.mp hl) h.not_absent
    · rename_i o hl
      exact absurd h (payments_eq_singleton.mp hl).not_repeated
    · rfl

end Search

def Announcing (o : TxOut) : Prop := ∃ a, Announcement.Announces o.script a

theorem isAnnouncement_eq_announcing : IsAnnouncement = Announcing := by
  funext o
  simp only [IsAnnouncement, Announcing, Announcement.ofTxOut, Announcement.ofScript_eq_ok_iff_announces]

section Conditions

variable (t : Transaction) (tag : Bytes) (covenants : List XOnlyKey) (quorum : UInt32)

structure Eligible : Prop where
  outputs : 2 ≤ t.outputs.length
  tagLength : tag.length = 4

/-- The transaction makes one announcement, at this output. -/
structure Announced (a : Announcement) (o : TxOut) (i : ℕ) : Prop extends Eligible t tag where
  announces : Announcement.Announces o.script a
  sole : Sole t.outputs Announcing o i

/-- What it announces concerns this tag and can be locked with this committee. -/
structure Lockable (a : Announcement) (o : TxOut) (i : ℕ) (locked : LockedOutput) : Prop
    extends Announced t tag a o i where
  ours : a.tag.bytes = tag
  built : LockedOutput.build .staking (announcedTerms a covenants quorum) 0 = .ok locked

/-- And one output of the transaction pays what is announced. -/
def Recognised (s : Stake) : Prop :=
  ∃ locked, Lockable t tag covenants quorum s.announcement s.announcementOutput s.announcementIndex
      locked ∧
    Sole t.outputs (Pays locked.script) s.stakingOutput s.stakingIndex

/-- The first condition that fails, and what it is called. -/
inductive Fault : StakingError → Prop where
  | fewOutputs (few : t.outputs.length < 2) : Fault (.notEnoughOutputs t.outputs.length)
  | tagLength (outputs : 2 ≤ t.outputs.length) (other : tag.length ≠ 4) :
    Fault (.invalidTagLength tag.length)
  | unannounced (eligible : Eligible t tag) (absent : Absent t.outputs Announcing) :
    Fault .missingOpReturn
  | announcedAgain (eligible : Eligible t tag) (repeated : Repeated t.outputs Announcing) :
    Fault .multipleOpReturns
  | foreign {a : Announcement} {o : TxOut} {i : ℕ} (announced : Announced t tag a o i)
    (other : a.tag.bytes ≠ tag) : Fault (.tagMismatch tag a.tag.bytes)
  | unlockable {a : Announcement} {o : TxOut} {i : ℕ} {e : StakingError}
    (announced : Announced t tag a o i) (ours : a.tag.bytes = tag)
    (failed : LockedOutput.build .staking (announcedTerms a covenants quorum) 0 = .error e) : Fault e
  | unpaid {a : Announcement} {o : TxOut} {i : ℕ} {locked : LockedOutput}
    (lockable : Lockable t tag covenants quorum a o i locked)
    (absent : Absent t.outputs (Pays locked.script)) : Fault .missingStakingOutput
  | paidAgain {a : Announcement} {o : TxOut} {i : ℕ} {locked : LockedOutput}
    (lockable : Lockable t tag covenants quorum a o i locked)
    (repeated : Repeated t.outputs (Pays locked.script)) : Fault .multipleStakingOutputs

end Conditions

variable {t : Transaction} {tag : Bytes} {covenants : List XOnlyKey} {quorum : UInt32}

theorem soleAnnouncement_eq_ok_iff {a : Announcement} {o : TxOut} {i : ℕ} (h : Eligible t tag) :
    soleAnnouncement t.outputs.zipIdx = .ok (a, o, i) ↔ Announced t tag a o i := by
  rw [soleAnnouncement_eq_ok, isAnnouncement_eq_announcing, Announcement.ofTxOut,
    Announcement.ofScript_eq_ok_iff_announces]
  constructor
  · intro hs
    exact ⟨h, hs.1, hs.2⟩
  · intro hs
    exact ⟨hs.announces, hs.sole⟩

theorem Announced.unique {a b : Announcement} {o q : TxOut} {i j : ℕ} (h : Announced t tag a o i)
    (k : Announced t tag b q j) : a = b := by
  have ha := (soleAnnouncement_eq_ok_iff h.toEligible).mpr h
  rw [(soleAnnouncement_eq_ok_iff k.toEligible).mpr k] at ha
  cases ha
  rfl

theorem recognise_eq_ok_iff_recognised {s : Stake} :
    recognise t tag covenants quorum = .ok s ↔ Recognised t tag covenants quorum s := by
  rw [recognise_eq_ok, isAnnouncement_eq_announcing, Announcement.ofTxOut,
    Announcement.ofScript_eq_ok_iff_announces]
  constructor
  · intro h
    obtain ⟨outputs, length, announces, sole, ours, locked, built, paid⟩ := h
    exact ⟨locked, ⟨⟨⟨outputs, length⟩, announces, sole⟩, ours, built⟩, paid⟩
  · intro h
    obtain ⟨locked, l, paid⟩ := h
    exact ⟨l.outputs, l.tagLength, l.announces, l.sole, l.ours, locked, l.built, paid⟩

theorem recognise_eq_error {e : StakingError} :
    recognise t tag covenants quorum = .error e ↔ Fault t tag covenants quorum e := by
  simp only [recognise, guard_eq_error, bind_eq_error, pure_ne_error, Prod.exists,
    soleAnnouncement_eq_error, solePayment_eq_error, isAnnouncement_eq_announcing, Nat.not_lt, ne_eq,
    Decidable.not_not, and_false, exists_false, or_false]
  constructor
  · rintro (⟨few, rfl⟩ | ⟨outputs, ⟨other, rfl⟩ | ⟨length, h⟩⟩)
    · exact .fewOutputs few
    · exact .tagLength outputs other
    · have eligible : Eligible t tag := ⟨outputs, length⟩
      rcases h with (⟨absent, rfl⟩ | ⟨repeated, rfl⟩) | ⟨a, o, i, found, h⟩
      · exact .unannounced eligible absent
      · exact .announcedAgain eligible repeated
      · have announced := (soleAnnouncement_eq_ok_iff eligible).mp found
        rcases h with ⟨other, rfl⟩ | ⟨ours, failed | ⟨locked, built, h⟩⟩
        · exact .foreign announced other
        · exact .unlockable announced ours failed
        · have lockable : Lockable t tag covenants quorum a o i locked := ⟨announced, ours, built⟩
          rcases h with ⟨absent, rfl⟩ | ⟨repeated, rfl⟩
          · exact .unpaid lockable absent
          · exact .paidAgain lockable repeated
  · intro h
    cases h with
    | fewOutputs few => exact Or.inl ⟨few, rfl⟩
    | tagLength outputs other => exact Or.inr ⟨outputs, Or.inl ⟨other, rfl⟩⟩
    | unannounced eligible absent =>
      exact Or.inr ⟨eligible.outputs, Or.inr ⟨eligible.tagLength, Or.inl (Or.inl ⟨absent, rfl⟩)⟩⟩
    | announcedAgain eligible repeated =>
      exact Or.inr ⟨eligible.outputs, Or.inr ⟨eligible.tagLength, Or.inl (Or.inr ⟨repeated, rfl⟩)⟩⟩
    | @foreign a o i announced other =>
      have found := (soleAnnouncement_eq_ok_iff announced.toEligible).mpr announced
      exact Or.inr ⟨announced.outputs, Or.inr ⟨announced.tagLength, Or.inr
        ⟨a, o, i, found, Or.inl ⟨other, rfl⟩⟩⟩⟩
    | @unlockable a o i e announced ours failed =>
      have found := (soleAnnouncement_eq_ok_iff announced.toEligible).mpr announced
      exact Or.inr ⟨announced.outputs, Or.inr ⟨announced.tagLength, Or.inr
        ⟨a, o, i, found, Or.inr ⟨ours, Or.inl failed⟩⟩⟩⟩
    | @unpaid a o i locked lockable absent =>
      have found := (soleAnnouncement_eq_ok_iff lockable.toEligible).mpr lockable.toAnnounced
      exact Or.inr ⟨lockable.outputs, Or.inr ⟨lockable.tagLength, Or.inr
        ⟨a, o, i, found, Or.inr ⟨lockable.ours, Or.inr ⟨locked, lockable.built,
          Or.inl ⟨absent, rfl⟩⟩⟩⟩⟩⟩
    | @paidAgain a o i locked lockable repeated =>
      have found := (soleAnnouncement_eq_ok_iff lockable.toEligible).mpr lockable.toAnnounced
      exact Or.inr ⟨lockable.outputs, Or.inr ⟨lockable.tagLength, Or.inr
        ⟨a, o, i, found, Or.inr ⟨lockable.ours, Or.inr ⟨locked, lockable.built,
          Or.inr ⟨repeated, rfl⟩⟩⟩⟩⟩⟩

theorem not_announcing_of_pays {locked : LockedOutput} {o : TxOut} (h : Pays locked.script o) :
    ¬ Announcing o := by
  rintro ⟨a, ha⟩
  have hpush := ha.push
  rw [show o.script = locked.script from h, LockedOutput.script, Script.taproot] at hpush
  simp at hpush

theorem Recognised.index_ne {s : Stake} (h : Recognised t tag covenants quorum s) :
    s.stakingIndex ≠ s.announcementIndex := by
  obtain ⟨locked, l, paid⟩ := h
  intro hi
  have hhere := paid.here
  rw [hi, l.sole.here, Option.some.injEq] at hhere
  exact not_announcing_of_pays paid.holds (hhere ▸ l.sole.holds)

/-- A transaction is answered with the stake that it is, or else with the first thing it lacks. -/
theorem recognise_exact (t : Transaction) (tag : Bytes) (covenants : List XOnlyKey)
    (quorum : UInt32) :
    (∀ s, recognise t tag covenants quorum = .ok s ↔ Recognised t tag covenants quorum s) ∧
    (∀ s, Recognised t tag covenants quorum s → s.stakingIndex ≠ s.announcementIndex) ∧
    ∀ e, recognise t tag covenants quorum = .error e ↔ Fault t tag covenants quorum e :=
  ⟨fun _ => recognise_eq_ok_iff_recognised, fun _ => Recognised.index_ne, fun _ => recognise_eq_error⟩

end Countersign.Stake
