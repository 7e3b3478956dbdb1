import Mathlib.Data.List.Infix
import Countersign.Proofs.Outcome

/-!
# The first step that fails

A computation that takes its steps in a fixed order refuses with what the first failing one says, however
many of the others would fail as well. The steps are named, and when one of them fails is said of each on
its own, so the order is all that ties them together.
-/

set_option autoImplicit false

namespace Countersign.Outcome

variable {σ ε ε' α β : Type}

/-- Of the steps this one fails, after some that do not. -/
structure FirstFailure (fails : σ → ε → Prop) (steps before : List σ) (s : σ) (e : ε) : Prop where
  upTo : before ++ [s] <+: steps
  passed : ∀ t ∈ before, ∀ d, ¬ fails t d
  failed : fails s e

section Lists

variable {fails : σ → ε → Prop} {steps rest before : List σ} {s t : σ} {e : ε}

theorem not_firstFailure_nil : ¬ FirstFailure fails [] before s e := by
  intro h
  have := List.prefix_nil.mp h.upTo
  simp at this

theorem firstFailure_cons_iff :
    FirstFailure fails (t :: steps) before s e ↔
      (before = [] ∧ s = t ∧ fails s e) ∨
      ∃ later, before = t :: later ∧ (∀ d, ¬ fails t d) ∧ FirstFailure fails steps later s e := by
  constructor
  · intro h
    rcases before with _ | ⟨u, later⟩
    · obtain ⟨rfl, -⟩ := List.cons_prefix_cons.mp h.upTo
      exact Or.inl ⟨rfl, rfl, h.failed⟩
    · obtain ⟨rfl, hp⟩ := List.cons_prefix_cons.mp h.upTo
      refine Or.inr ⟨later, rfl, h.passed u List.mem_cons_self, hp, ?_, h.failed⟩
      intro t ht
      exact h.passed t (List.mem_cons_of_mem _ ht)
  · rintro (⟨rfl, rfl, failed⟩ | ⟨later, rfl, pass, h⟩)
    · exact ⟨List.cons_prefix_cons.mpr ⟨rfl, List.nil_prefix⟩, by simp, failed⟩
    · refine ⟨List.cons_prefix_cons.mpr ⟨rfl, h.upTo⟩, ?_, h.failed⟩
      intro u hu
      rcases List.mem_cons.mp hu with rfl | hu
      · exact pass
      · exact h.passed u hu

theorem firstFailure_append_iff :
    FirstFailure fails (steps ++ rest) before s e ↔
      FirstFailure fails steps before s e ∨
      ∃ later, before = steps ++ later ∧ (∀ t ∈ steps, ∀ d, ¬ fails t d) ∧
        FirstFailure fails rest later s e := by
  induction steps generalizing before with
  | nil => simp [not_firstFailure_nil]
  | cons t steps ih =>
    simp only [List.cons_append, firstFailure_cons_iff, ih, List.mem_cons, forall_eq_or_imp]
    constructor
    · rintro (h | ⟨_, rfl, pass, h | ⟨later, rfl, passed, h⟩⟩)
      · exact Or.inl (Or.inl h)
      · exact Or.inl (Or.inr ⟨_, rfl, pass, h⟩)
      · exact Or.inr ⟨later, rfl, ⟨pass, passed⟩, h⟩
    · rintro ((h | ⟨_, rfl, pass, h⟩) | ⟨later, rfl, ⟨pass, passed⟩, h⟩)
      · exact Or.inl h
      · exact Or.inr ⟨_, rfl, pass, Or.inl h⟩
      · exact Or.inr ⟨_, rfl, pass, Or.inr ⟨later, rfl, passed, h⟩⟩

theorem exists_firstFailure_iff :
    (∃ before s e, FirstFailure fails steps before s e) ↔ ∃ s ∈ steps, ∃ e, fails s e := by
  induction steps with
  | nil => simp [not_firstFailure_nil]
  | cons t steps ih =>
    constructor
    · rintro ⟨before, s, e, h⟩
      exact ⟨s, h.upTo.subset (by simp), e, h.failed⟩
    · rintro ⟨s, hs, e, h⟩
      by_cases pass : ∀ d, ¬ fails t d
      · have hne : s ≠ t := by
          rintro rfl
          exact pass e h
        obtain ⟨before, u, d, first⟩ := ih.mpr ⟨s, (List.mem_cons.mp hs).resolve_left hne, e, h⟩
        exact ⟨t :: before, u, d, firstFailure_cons_iff.mpr (Or.inr ⟨before, rfl, pass, first⟩)⟩
      · obtain ⟨d, hd⟩ := not_forall_not.mp pass
        exact ⟨[], t, d, firstFailure_cons_iff.mpr (Or.inl ⟨rfl, rfl, hd⟩)⟩

end Lists

/-- The computation takes these steps in this order: it refuses with what the first failing one says, and
only then. -/
def Follows (fails : σ → ε → Prop) (steps : List σ) (x : Except ε α) : Prop :=
  ∀ e, x = .error e ↔ ∃ before s, FirstFailure fails steps before s e

namespace Follows

variable {fails : σ → ε → Prop} {steps : List σ} {s : σ} {c : Except ε β}

theorem ok (a : α) : Follows fails [] (.ok a : Except ε α) := by
  intro e
  simp [not_firstFailure_nil]

theorem passed {x : Except ε α} (h : Follows fails steps x) :
    (∃ a, x = .ok a) ↔ ∀ s ∈ steps, ∀ e, ¬ fails s e := by
  have hall : (∃ e, x = .error e) ↔ ∃ s ∈ steps, ∃ e, fails s e := by
    simp only [h _, ← exists_firstFailure_iff]
    constructor
    · rintro ⟨e, before, s, h⟩
      exact ⟨before, s, e, h⟩
    · rintro ⟨before, s, e, h⟩
      exact ⟨e, before, s, h⟩
  cases x with
  | ok a => simpa using hall
  | error d => simpa using hall

theorem single (here : ∀ e, c = .error e ↔ fails s e) : Follows fails [s] c := by
  intro e
  simp only [firstFailure_cons_iff, not_firstFailure_nil, and_false, exists_false, or_false, here]
  constructor
  · intro h
    exact ⟨[], s, rfl, rfl, h⟩
  · rintro ⟨_, _, -, rfl, h⟩
    exact h

theorem append {rest : List σ} {f : β → Except ε α} (first : Follows fails steps c)
    (later : ∀ b, c = .ok b → Follows fails rest (f b)) : Follows fails (steps ++ rest) (c >>= f) := by
  intro e
  simp only [bind_eq_error, firstFailure_append_iff, exists_or, first e]
  refine or_congr Iff.rfl ?_
  constructor
  · rintro ⟨b, hb, h⟩
    obtain ⟨before, s, failure⟩ := (later b hb e).mp h
    exact ⟨_, s, before, rfl, first.passed.mp ⟨b, hb⟩, failure⟩
  · rintro ⟨_, s, before, rfl, passed, failure⟩
    obtain ⟨b, hb⟩ := first.passed.mpr passed
    exact ⟨b, hb, (later b hb e).mpr ⟨before, s, failure⟩⟩

theorem bind {f : β → Except ε α} (here : ∀ e, c = .error e ↔ fails s e)
    (later : ∀ b, c = .ok b → Follows fails steps (f b)) : Follows fails (s :: steps) (c >>= f) :=
  append (single here) later

theorem guard {p : Prop} [Decidable p] {d : ε} {f : β → Except ε α} {x : Except ε α}
    (here : ∀ e, p ∧ d = e ↔ fails s e) (later : ¬ p → Follows fails steps x) :
    Follows fails (s :: steps) (if p then throw d >>= f else x) := by
  have h : (if p then throw d >>= f else x) =
      (if p then .error d else .ok () : Except ε Unit) >>= fun _ => x := by
    by_cases hp : p
    · simp [hp, Bind.bind, Except.bind, throw, throwThe, MonadExceptOf.throw]
    · simp [hp, Bind.bind, Except.bind]
  rw [h]
  apply bind
  · intro e
    rw [← here e]
    by_cases hp : p
    · simp [hp]
    · simp [hp]
  · intro _ hok
    apply later
    intro hp
    simp [hp] at hok

theorem rename {τ : Type} {fails' : τ → ε' → Prop} {f : σ → τ} {g : ε → ε'} {x : Except ε α}
    (h : Follows fails steps x) (renamed : ∀ s e, fails' (f s) e ↔ ∃ d, fails s d ∧ g d = e) :
    Follows fails' (steps.map f) (x.mapError g) := by
  intro e
  rw [mapError_eq_error]
  constructor
  · rintro ⟨d, hd, rfl⟩
    obtain ⟨before, s, first⟩ := (h d).mp hd
    refine ⟨before.map f, f s, ?_, ?_, (renamed s _).mpr ⟨d, first.failed, rfl⟩⟩
    · simpa using first.upTo.map f
    · intro t ht e' hf
      obtain ⟨u, hu, rfl⟩ := List.mem_map.mp ht
      obtain ⟨d', hd', -⟩ := (renamed u e').mp hf
      exact first.passed u hu d' hd'
  · rintro ⟨before, t, first⟩
    obtain ⟨upTo, prefixed, hmap⟩ := List.prefix_map_iff.mp first.upTo
    obtain ⟨passed, last, rfl, rfl, hlast⟩ := List.append_eq_map_iff.mp hmap
    obtain ⟨s, rfl, rfl⟩ := List.map_eq_singleton_iff.mp hlast
    obtain ⟨d, failed, rfl⟩ := (renamed s _).mp first.failed
    refine ⟨d, (h d).mpr ⟨passed, s, prefixed, ?_, failed⟩, rfl⟩
    intro u hu d' hd'
    exact first.passed (f u) (List.mem_map_of_mem hu) (g d') ((renamed u _).mpr ⟨d', hd', rfl⟩)

end Follows

end Countersign.Outcome
