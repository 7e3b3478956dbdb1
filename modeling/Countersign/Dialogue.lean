/-!
# Dialogues

A program that consults others is a tree: it is done, or it puts a question and goes on with whatever
answer comes back. Nothing is fixed about who answers, so one dialogue runs against live services,
against a rehearsed script, or against every possible answer in a proof.
-/

set_option autoImplicit false

namespace Countersign

/-- The questions that may be put, and for each the answers it can have. -/
structure Interface where
  Question : Type
  Answer : Question → Type

inductive Dialogue (I : Interface) (α : Type) where
  | done (result : α)
  | ask (question : I.Question) (next : I.Answer question → Dialogue I α)

namespace Dialogue

variable {I : Interface} {α β γ : Type}

def bind : Dialogue I α → (α → Dialogue I β) → Dialogue I β
  | .done a, f => f a
  | .ask q next, f => .ask q fun answer => (next answer).bind f

instance : Monad (Dialogue I) where
  pure := .done
  bind := bind

def question (q : I.Question) : Dialogue I (I.Answer q) := .ask q .done

def run {m : Type → Type} [Monad m] (answer : (q : I.Question) → m (I.Answer q)) :
    Dialogue I α → m α
  | .done a => pure a
  | .ask q next => do
    let a ← answer q
    (next a).run answer

def questions (answer : (q : I.Question) → I.Answer q) : Dialogue I α → List I.Question
  | .done _ => []
  | .ask q next => q :: (next (answer q)).questions answer

def outcome (answer : (q : I.Question) → I.Answer q) : Dialogue I α → α
  | .done a => a
  | .ask q next => (next (answer q)).outcome answer

/-- Answers the questions of one interface by dialogues over another. -/
def translate {J : Interface} (answer : (q : I.Question) → Dialogue J (I.Answer q)) :
    Dialogue I α → Dialogue J α
  | .done a => .done a
  | .ask q next => (answer q).bind fun a => (next a).translate answer

theorem bind_assoc (d : Dialogue I α) (f : α → Dialogue I β) (g : β → Dialogue I γ) :
    (d.bind f).bind g = d.bind fun a => (f a).bind g := by
  induction d with
  | done a => rfl
  | ask q next ih => simp only [bind, ih]

theorem bind_done (d : Dialogue I α) : d.bind .done = d := by
  induction d with
  | done a => rfl
  | ask q next ih => simp only [bind, ih]

theorem outcome_bind (answer : (q : I.Question) → I.Answer q) (d : Dialogue I α)
    (f : α → Dialogue I β) : (d.bind f).outcome answer = (f (d.outcome answer)).outcome answer := by
  induction d with
  | done a => rfl
  | ask q next ih => simp only [bind, outcome, ih]

theorem questions_bind (answer : (q : I.Question) → I.Answer q) (d : Dialogue I α)
    (f : α → Dialogue I β) :
    (d.bind f).questions answer = d.questions answer ++ (f (d.outcome answer)).questions answer := by
  induction d with
  | done a => rfl
  | ask q next ih => simp only [bind, outcome, questions, ih, List.cons_append]

section Translation

variable {J : Interface} (answer : (q : J.Question) → J.Answer q)
  (through : (q : I.Question) → Dialogue J (I.Answer q)) (d : Dialogue I α)

theorem outcome_translate :
    (d.translate through).outcome answer = d.outcome fun q => (through q).outcome answer := by
  induction d with
  | done a => rfl
  | ask q next ih => rw [translate, outcome_bind, ih, outcome]

theorem questions_translate :
    (d.translate through).questions answer =
      (d.questions fun q => (through q).outcome answer).flatMap fun q => (through q).questions answer := by
  induction d with
  | done a => rfl
  | ask q next ih => rw [translate, questions_bind, ih, questions, List.flatMap_cons]

end Translation

end Dialogue

end Countersign
