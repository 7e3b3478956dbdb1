import Countersign.Policy.Engine

/-!
# What the policy asks

With the answer to every inquiry fixed, signing comes down to the inquiries that are put, in order,
and the verdict. A step that is settled puts no inquiry, and a consultation puts one and goes on only
if the answer is accepted.
-/

set_option autoImplicit false

namespace Countersign.Policy

variable {α β : Type}

abbrev Answers := (q : Inquiry) → q.Answer

def asked (answers : Answers) (d : ExceptT PolicyError (Dialogue Inquiries) α) : List Inquiry :=
  Dialogue.questions (I := Inquiries) answers d.run

def verdict (answers : Answers) (d : ExceptT PolicyError (Dialogue Inquiries) α) :
    Except PolicyError α :=
  Dialogue.outcome (I := Inquiries) answers d.run

section Steps

variable (answers : Answers) (f : α → ExceptT PolicyError (Dialogue Inquiries) β)

theorem asked_settle (e : Except PolicyError α) :
    asked answers (settle e >>= f) = match e with
      | .ok a => asked answers (f a)
      | .error _ => [] := by
  cases e with
  | error e => rfl
  | ok a => rfl

theorem verdict_settle (e : Except PolicyError α) :
    verdict answers (settle e >>= f) = e >>= fun a => verdict answers (f a) := by
  cases e with
  | error e => rfl
  | ok a => rfl

theorem asked_consult (q : Inquiry) (accept : q.Answer → Except PolicyError α) :
    asked answers (consult q accept >>= f) = q :: match accept (answers q) with
      | .ok a => asked answers (f a)
      | .error _ => [] := by
  rw [← asked_settle answers f]
  rfl

theorem verdict_consult (q : Inquiry) (accept : q.Answer → Except PolicyError α) :
    verdict answers (consult q accept >>= f) =
      accept (answers q) >>= fun a => verdict answers (f a) := by
  rw [← verdict_settle answers f]
  rfl

section Accepted

variable {a : α}

theorem asked_settle_ok {e : Except PolicyError α} (h : e = .ok a) :
    asked answers (settle e >>= f) = asked answers (f a) := by
  rw [asked_settle, h]

theorem verdict_settle_ok {e : Except PolicyError α} (h : e = .ok a) :
    verdict answers (settle e >>= f) = verdict answers (f a) := by
  rw [verdict_settle, h]
  rfl

variable {q : Inquiry} {accept : q.Answer → Except PolicyError α} (h : accept (answers q) = .ok a)

include h

theorem asked_consult_ok : asked answers (consult q accept >>= f) = q :: asked answers (f a) := by
  rw [asked_consult, h]

theorem verdict_consult_ok : verdict answers (consult q accept >>= f) = verdict answers (f a) := by
  rw [verdict_consult, h]
  rfl

end Accepted

theorem mem_asked_settle {q : Inquiry} {e : Except PolicyError α} :
    q ∈ asked answers (settle e >>= f) ↔ ∃ a, e = .ok a ∧ q ∈ asked answers (f a) := by
  rw [asked_settle]
  cases e with
  | error e => simp
  | ok a => simp

theorem mem_asked_consult {q p : Inquiry} {accept : p.Answer → Except PolicyError α} :
    q ∈ asked answers (consult p accept >>= f) ↔
      q = p ∨ ∃ a, accept (answers p) = .ok a ∧ q ∈ asked answers (f a) := by
  rw [asked_consult, List.mem_cons]
  cases accept (answers p) with
  | error e => simp
  | ok a => simp

end Steps

section Last

variable (answers : Answers) {q : Inquiry} {accept : q.Answer → Except PolicyError α}

theorem mem_asked_last {p : Inquiry} : p ∈ asked answers (consult q accept) ↔ p = q :=
  List.mem_singleton

theorem verdict_last : verdict answers (consult q accept) = accept (answers q) := rfl

end Last

end Countersign.Policy
