import Mathlib.Data.List.Infix
import Mathlib.Tactic.Common
import Mathlib.Tactic.SplitIfs
import Countersign.Params.Schedule

/-!
# Versions in their places

Versions make a schedule when there are some, each has its place for a number, and each activates above
the one before it. The first version that does not fit behind the others is reported, its number before its
height.
-/

set_option autoImplicit false

namespace Countersign.Schedule

def Numbered (index : ℕ) (versions : List ParametersVersion) : Prop :=
  ∀ i v, versions[i]? = some v → v.version.toNat = index + i

def Rising (versions : List ParametersVersion) : Prop :=
  versions.Pairwise fun v w => v.activationHeight < w.activationHeight

/-- Why a version cannot stand at this place, behind one that activates at the previous height. -/
inductive Misfit (index : ℕ) (previous : Option UInt64) (v : ParametersVersion) : ParamsError → Prop where
  | number (other : v.version.toNat ≠ index) :
    Misfit index previous v (.invalid v.version (.numbering index))
  | height {below : UInt64} (numbered : v.version.toNat = index) (behind : previous = some below)
    (low : v.activationHeight ≤ below) :
    Misfit index previous v (.invalid v.version (.activation v.activationHeight below))

/-- The first version that cannot stand where it does is refused. -/
inductive Misplaced (versions : List ParametersVersion) (e : ParamsError) : Prop where
  | mk {before after : List ParametersVersion} {v : ParametersVersion}
    (split : versions = before ++ v :: after) (numbered : Numbered 0 before) (rising : Rising before)
    (misfit : Misfit before.length (before.getLast?.map (·.activationHeight)) v e)

variable {index : ℕ} {previous : Option UInt64} {v : ParametersVersion}
  {versions rest : List ParametersVersion} {e : ParamsError}

theorem numbered_nil : Numbered index [] := by
  intro i v h
  simp at h

theorem numbered_cons :
    Numbered index (v :: rest) ↔ v.version.toNat = index ∧ Numbered (index + 1) rest := by
  constructor
  · intro h
    refine ⟨h 0 v rfl, ?_⟩
    intro i w hw
    rw [h (i + 1) w hw]
    omega
  · rintro ⟨hv, hr⟩ i w hw
    cases i with
    | zero =>
      obtain rfl := Option.some.inj hw
      exact hv
    | succ i =>
      rw [hr i w hw]
      omega

theorem rising_cons :
    Rising (v :: rest) ↔ (∀ w ∈ rest, v.activationHeight < w.activationHeight) ∧ Rising rest :=
  List.pairwise_cons

theorem fits_iff :
    (∀ e, ¬ Misfit index previous v e) ↔
      v.version.toNat = index ∧ ∀ below ∈ previous, below < v.activationHeight := by
  constructor
  · intro h
    have numbered : v.version.toNat = index := by
      by_contra other
      exact h _ (.number other)
    refine ⟨numbered, ?_⟩
    intro below hb
    by_contra low
    exact h _ (.height numbered hb (UInt64.not_lt.mp low))
  · rintro ⟨numbered, above⟩ e (other | ⟨-, behind, low⟩)
    · exact other numbered
    · exact UInt64.not_lt.mpr low (above _ behind)

theorem misplaced?_of_misfit (misfit : Misfit index previous v e) :
    misplaced? index previous (v :: rest) = some e := by
  unfold misplaced?
  cases misfit with
  | number other => rw [if_pos other]
  | height numbered behind low =>
    rw [if_neg (not_not.mpr numbered), behind]
    simp only [if_pos low]

theorem Misfit.unique {d : ParamsError} (h : Misfit index previous v d) (h' : Misfit index previous v e) :
    d = e := by
  have first : misplaced? index previous [v] = some d := misplaced?_of_misfit h
  rw [misplaced?_of_misfit h', Option.some.injEq] at first
  exact first.symm

theorem misplaced?_of_fits (fits : ∀ e, ¬ Misfit index previous v e) :
    misplaced? index previous (v :: rest) = misplaced? (index + 1) (some v.activationHeight) rest := by
  obtain ⟨numbered, above⟩ := fits_iff.mp fits
  cases previous with
  | none => simp [misplaced?, numbered]
  | some below => simp [misplaced?, numbered, UInt64.not_le.mpr (above below rfl)]

theorem misplaced?_eq_none_iff :
    misplaced? index previous versions = none ↔
      Numbered index versions ∧ Rising versions ∧
        ∀ below ∈ previous, ∀ v ∈ versions, below < v.activationHeight := by
  induction versions generalizing index previous with
  | nil => simp [misplaced?, numbered_nil, Rising]
  | cons v rest ih =>
    by_cases fits : ∀ e, ¬ Misfit index previous v e
    · obtain ⟨number, above⟩ := fits_iff.mp fits
      rw [misplaced?_of_fits fits, ih, numbered_cons, rising_cons]
      constructor
      · rintro ⟨numbered, rising, higher⟩
        refine ⟨⟨number, numbered⟩, ⟨higher _ rfl, rising⟩, ?_⟩
        intro below hb w hw
        rcases List.mem_cons.mp hw with rfl | hw
        · exact above below hb
        · exact UInt64.lt_trans (above below hb) (higher _ rfl w hw)
      · rintro ⟨⟨-, numbered⟩, ⟨higher, rising⟩, -⟩
        refine ⟨numbered, rising, ?_⟩
        rintro _ ⟨⟩
        exact higher
    · obtain ⟨e, misfit⟩ := not_forall_not.mp fits
      rw [misplaced?_of_misfit misfit]
      refine iff_of_false nofun ?_
      rintro ⟨numbered, -, higher⟩
      have above : ∀ below ∈ previous, below < v.activationHeight := fun below hb =>
        higher below hb v List.mem_cons_self
      exact fits_iff.mpr ⟨(numbered_cons.mp numbered).1, above⟩ e misfit

theorem placed_iff : misplaced? 0 none versions = none ↔ Numbered 0 versions ∧ Rising versions := by
  simp [misplaced?_eq_none_iff]

def lastHeight (previous : Option UInt64) (versions : List ParametersVersion) : Option UInt64 :=
  (versions.getLast?.map (·.activationHeight)).or previous

theorem lastHeight_cons :
    lastHeight previous (v :: rest) = lastHeight (some v.activationHeight) rest := by
  cases h : rest.getLast? with
  | none => simp [lastHeight, List.getLast?_cons, h]
  | some w => simp [lastHeight, List.getLast?_cons, h]

theorem misplaced?_eq_some_iff :
    misplaced? index previous versions = some e ↔ ∃ before v after, versions = before ++ v :: after ∧
      misplaced? index previous before = none ∧
      Misfit (index + before.length) (lastHeight previous before) v e := by
  induction versions generalizing index previous with
  | nil => simp [misplaced?]
  | cons u rest ih =>
    by_cases fits : ∀ e, ¬ Misfit index previous u e
    · rw [misplaced?_of_fits fits, ih]
      constructor
      · rintro ⟨before, v, after, rfl, placed, misfit⟩
        refine ⟨u :: before, v, after, rfl, ?_, ?_⟩
        · rw [misplaced?_of_fits fits, placed]
        · rwa [lastHeight_cons, List.length_cons, Nat.add_comm before.length, ← Nat.add_assoc]
      · rintro ⟨_ | ⟨w, before⟩, v, after, split, placed, misfit⟩
        · obtain ⟨rfl, -⟩ := List.cons.inj split
          exact absurd misfit (fits e)
        · obtain ⟨rfl, rfl⟩ := List.cons.inj split
          rw [misplaced?_of_fits fits] at placed
          rw [lastHeight_cons, List.length_cons, Nat.add_comm before.length, ← Nat.add_assoc] at misfit
          exact ⟨before, v, after, rfl, placed, misfit⟩
    · obtain ⟨d, misfit⟩ := not_forall_not.mp fits
      rw [misplaced?_of_misfit misfit, Option.some.injEq]
      constructor
      · rintro rfl
        exact ⟨[], u, rest, rfl, rfl, misfit⟩
      · rintro ⟨_ | ⟨w, before⟩, v, after, split, placed, other⟩
        · obtain ⟨rfl, -⟩ := List.cons.inj split
          exact misfit.unique other
        · obtain ⟨rfl, -⟩ := List.cons.inj split
          rw [misplaced?_of_misfit misfit] at placed
          cases placed

theorem misplaced_iff : misplaced? 0 none versions = some e ↔ Misplaced versions e := by
  simp only [misplaced?_eq_some_iff, placed_iff, Nat.zero_add, lastHeight, Option.or_none]
  constructor
  · rintro ⟨before, v, after, split, ⟨numbered, rising⟩, misfit⟩
    exact ⟨split, numbered, rising, misfit⟩
  · rintro ⟨split, numbered, rising, misfit⟩
    exact ⟨_, _, _, split, ⟨numbered, rising⟩, misfit⟩

theorem ofVersions_eq_ok_iff {s : Schedule} :
    ofVersions versions = .ok s ↔
      s.versions = versions ∧ versions ≠ [] ∧ Numbered 0 versions ∧ Rising versions := by
  obtain ⟨made, nonempty, placed⟩ := s
  unfold ofVersions
  split
  · rename_i some
    split
    · rename_i d misplaced
      refine iff_of_false nofun ?_
      rintro ⟨-, -, h⟩
      rw [placed_iff.mpr h] at misplaced
      cases misplaced
    · rename_i fine
      simp only [Except.ok.injEq, mk.injEq, some, placed_iff.mp fine, ne_eq, not_false_eq_true, and_true]
      exact eq_comm
  · rename_i none
    refine iff_of_false nofun ?_
    rintro ⟨-, some, -⟩
    exact none some

theorem ofVersions_eq_error_iff :
    ofVersions versions = .error e ↔ (versions = [] ∧ .empty = e) ∨ Misplaced versions e := by
  have gap : ∀ d, misplaced? 0 none ([] : List ParametersVersion) ≠ some d := nofun
  rw [← misplaced_iff]
  unfold ofVersions
  split
  · rename_i some
    split
    · rename_i d misplaced
      simp [some, misplaced]
    · rename_i fine
      simp [some, fine]
  · rename_i none
    obtain rfl := not_not.mp none
    simp [gap]

end Countersign.Schedule
