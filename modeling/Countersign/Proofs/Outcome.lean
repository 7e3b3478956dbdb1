import Mathlib.Data.List.Forall2
import Countersign.Bytes

/-!
# Computations that may refuse

A computation in `Except` is a chain of steps, each of which goes on or refuses. These laws read off
a chain that went on to the end what every step of it gave, and off one that stopped where it did.
-/

set_option autoImplicit false

namespace Countersign.Outcome

variable {ε ε' α β : Type}

theorem bind_eq_ok {x : Except ε α} {f : α → Except ε β} {b : β} :
    (x >>= f) = .ok b ↔ ∃ a, x = .ok a ∧ f a = .ok b := by
  cases x with
  | error e => simp [bind, Except.bind]
  | ok a => simp [bind, Except.bind]

theorem pure_eq_ok {a b : α} : (pure a : Except ε α) = .ok b ↔ a = b := by
  simp [pure, Except.pure]

theorem throw_ne_ok {e : ε} {a : α} : (throw e : Except ε α) ≠ .ok a := by
  simp [throw, throwThe, MonadExceptOf.throw]

theorem mapError_eq_ok {f : ε → ε'} {x : Except ε α} {a : α} :
    x.mapError f = .ok a ↔ x = .ok a := by
  cases x with
  | error e => simp [Except.mapError]
  | ok b => simp [Except.mapError]

theorem guard_eq_ok {c : Prop} [Decidable c] {e : ε} {f : α → Except ε β} {x : Except ε β} {b : β} :
    (if c then throw e >>= f else x) = .ok b ↔ ¬ c ∧ x = .ok b := by
  by_cases h : c
  · simp [h, bind, Except.bind, throw, throwThe, MonadExceptOf.throw]
  · simp [h]

theorem bind_eq_error {x : Except ε α} {f : α → Except ε β} {e : ε} :
    (x >>= f) = .error e ↔ x = .error e ∨ ∃ a, x = .ok a ∧ f a = .error e := by
  cases x with
  | error d => simp [bind, Except.bind]
  | ok a => simp [bind, Except.bind]

theorem pure_ne_error {a : α} {e : ε} : (pure a : Except ε α) ≠ .error e := by
  simp [pure, Except.pure]

theorem mapError_eq_error {f : ε → ε'} {x : Except ε α} {e : ε'} :
    x.mapError f = .error e ↔ ∃ d, x = .error d ∧ f d = e := by
  cases x with
  | error d => simp [Except.mapError]
  | ok a => simp [Except.mapError]

theorem guard_eq_error {c : Prop} [Decidable c] {d e : ε} {f : α → Except ε β} {x : Except ε β} :
    (if c then throw d >>= f else x) = .error e ↔ (c ∧ d = e) ∨ (¬ c ∧ x = .error e) := by
  by_cases h : c
  · simp [h, bind, Except.bind, throw, throwThe, MonadExceptOf.throw]
  · simp [h]

theorem require_eq_ok {c : Prop} [Decidable c] {e : ε} {u : Unit} :
    (if c then .ok () else .error e : Except ε Unit) = .ok u ↔ c := by
  by_cases h : c
  · simp [h]
  · simp [h]

theorem require_eq_error {c : Prop} [Decidable c] {d e : ε} :
    (if c then .ok () else .error d : Except ε Unit) = .error e ↔ ¬ c ∧ d = e := by
  by_cases h : c
  · simp [h]
  · simp [h]

theorem mapM_eq_ok {f : α → Except ε β} {as : List α} {bs : List β} :
    as.mapM f = .ok bs ↔ List.Forall₂ (fun a b => f a = .ok b) as bs := by
  induction as generalizing bs with
  | nil =>
    rw [List.mapM_nil, pure_eq_ok, List.forall₂_nil_left_iff]
    exact eq_comm
  | cons a as ih =>
    simp only [List.mapM_cons, bind_eq_ok, pure_eq_ok, ih, List.forall₂_cons_left_iff]
    constructor
    · intro h
      obtain ⟨b, hb, bs, hbs, rfl⟩ := h
      exact ⟨b, bs, hb, hbs, rfl⟩
    · intro h
      obtain ⟨b, bs, hb, hbs, rfl⟩ := h
      exact ⟨b, hb, bs, hbs, rfl⟩

theorem mapM_eq_error {f : α → Except ε β} {as : List α} {e : ε} :
    as.mapM f = .error e ↔ ∃ before a after, as = before ++ a :: after ∧
      (∀ b ∈ before, ∃ c, f b = .ok c) ∧ f a = .error e := by
  induction as with
  | nil => simp [pure_ne_error]
  | cons u as ih =>
    simp only [List.mapM_cons, bind_eq_error, pure_ne_error, and_false, exists_false, or_false, ih]
    constructor
    · rintro (h | ⟨c, hc, before, a, after, rfl, passed, h⟩)
      · exact ⟨[], u, as, rfl, by simp, h⟩
      · exact ⟨u :: before, a, after, rfl, List.forall_mem_cons.mpr ⟨⟨c, hc⟩, passed⟩, h⟩
    · rintro ⟨_ | ⟨w, before⟩, a, after, split, passed, h⟩
      · obtain ⟨rfl, -⟩ := List.cons.inj split
        exact Or.inl h
      · obtain ⟨rfl, rfl⟩ := List.cons.inj split
        obtain ⟨⟨c, hc⟩, passed⟩ := List.forall_mem_cons.mp passed
        exact Or.inr ⟨c, hc, before, a, after, rfl, passed, h⟩

end Countersign.Outcome
