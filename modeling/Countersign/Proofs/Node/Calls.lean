import Countersign.Node.Rpc
import Countersign.Proofs.Outcome

/-!
# Calls and what comes of them

With the reply to every call fixed, calls in a row come to one result and are the same ones each time. The
laws follow the ways of putting calls together: one after the other, and with recovery from an error.
-/

set_option autoImplicit false

namespace Countersign.Node

open Outcome

/-- The node's replies: to each call one. -/
abbrev Replies := (call : RpcCall) → Except RpcError Json

section Answers

variable {α β : Type}

def answer (replies : Replies) (calls : ExceptT NodeError (Dialogue Rpc) α) : Except NodeError α :=
  Dialogue.outcome (I := Rpc) replies calls.run

variable (replies : Replies)

theorem answer_bind (x : ExceptT NodeError (Dialogue Rpc) α)
    (f : α → ExceptT NodeError (Dialogue Rpc) β) :
    answer replies (x >>= f) = answer replies x >>= fun a => answer replies (f a) := by
  refine (Dialogue.outcome_bind (I := Rpc) replies x.run _).trans ?_
  unfold answer
  cases Dialogue.outcome (I := Rpc) replies x.run with
  | error e => rfl
  | ok a => rfl

theorem answer_call (method : String) (params : List Json) (read : Json → Option α) :
    answer replies (Rpc.call method params read) =
      (replies ⟨method, params⟩).mapError .rpc >>= fun v =>
        (read v).elim (.error (.rpc .unreadable)) .ok := by
  have hask : ∀ next : Except RpcError Json → Dialogue Rpc (Except NodeError α),
      Dialogue.outcome (I := Rpc) replies (.ask ⟨method, params⟩ next) =
        Dialogue.outcome (I := Rpc) replies (next (replies ⟨method, params⟩)) := fun _ => rfl
  refine (hask _).trans ?_
  cases replies ⟨method, params⟩ with
  | error e => rfl
  | ok v =>
    show _ = ((read v).elim (.error (.rpc .unreadable)) .ok : Except NodeError α)
    simp only [Dialogue.outcome]
    cases read v with
    | none => rfl
    | some a => rfl

theorem answer_call_ok {method : String} {params : List Json} {read : Json → Option α} {v : Json} {a : α}
    (sent : replies ⟨method, params⟩ = .ok v) (readable : read v = some a) :
    answer replies (Rpc.call method params read) = .ok a := by
  rw [answer_call, sent]
  show (read v).elim _ _ = _
  rw [readable]
  rfl

section Replied

variable {replies} {method : String} {params : List Json} {read : Json → Option α}

theorem answer_call_eq_ok {a : α} :
    answer replies (Rpc.call method params read) = .ok a ↔
      ∃ v, replies ⟨method, params⟩ = .ok v ∧ read v = some a := by
  rw [answer_call, bind_eq_ok]
  simp only [mapError_eq_ok]
  refine exists_congr fun v => and_congr_right fun _ => ?_
  cases read v with
  | none => simp
  | some b => simp

/-- What came back is no value of the kind that was called for. -/
inductive Unread (replies : Replies) (call : RpcCall) (read : Json → Option α) : NodeError → Prop where
  | refused {e : RpcError} (refused : replies call = .error e) : Unread replies call read (.rpc e)
  | unreadable {v : Json} (sent : replies call = .ok v) (unreadable : read v = none) :
    Unread replies call read (.rpc .unreadable)

theorem answer_call_eq_error {e : NodeError} :
    answer replies (Rpc.call method params read) = .error e ↔ Unread replies ⟨method, params⟩ read e := by
  rw [answer_call, bind_eq_error, mapError_eq_error]
  constructor
  · intro h
    rcases h with ⟨d, refused, rfl⟩ | ⟨v, sent, h⟩
    · exact .refused refused
    · rw [mapError_eq_ok] at sent
      cases unreadable : read v with
      | none =>
        rw [unreadable] at h
        cases h
        exact .unreadable sent unreadable
      | some a =>
        rw [unreadable] at h
        cases h
  · intro h
    cases h with
    | refused refused => exact .inl ⟨_, refused, rfl⟩
    | @unreadable v sent unreadable =>
      refine .inr ⟨v, mapError_eq_ok.mpr sent, ?_⟩
      rw [unreadable]
      rfl

end Replied

/-- The calls come to this result and are these, in order. -/
def Runs (calls : ExceptT NodeError (Dialogue Rpc) α) (result : Except NodeError α)
    (asked : List RpcCall) : Prop :=
  answer replies calls = result ∧ Dialogue.questions (I := Rpc) replies calls.run = asked

variable {replies} {x : ExceptT NodeError (Dialogue Rpc) α} {asked later : List RpcCall} {a : α}
  {e : NodeError}

theorem runs_pure (a : α) : Runs replies (pure a) (.ok a) [] := ⟨rfl, rfl⟩

theorem runs_throw (e : NodeError) :
    Runs replies (throw e : ExceptT NodeError (Dialogue Rpc) α) (.error e) [] := ⟨rfl, rfl⟩

theorem runs_lift (result : Except NodeError α) :
    Runs replies (ExceptT.mk (.done result)) result [] := ⟨rfl, rfl⟩

theorem runs_call {method : String} {params : List Json} {read : Json → Option α}
    {result : Except NodeError α} (sent : answer replies (Rpc.call method params read) = result) :
    Runs replies (Rpc.call method params read) result [⟨method, params⟩] := ⟨sent, rfl⟩

theorem Runs.append {result : Except NodeError α} {final : Except NodeError β}
    (first : Runs replies x result asked) (next : Except NodeError α → Dialogue Rpc (Except NodeError β))
    (rest : Runs replies (ExceptT.mk (next result)) final later) :
    Runs replies (ExceptT.mk (x.run.bind next)) final (asked ++ later) := by
  obtain ⟨rfl, rfl⟩ := first
  obtain ⟨rfl, rfl⟩ := rest
  exact ⟨Dialogue.outcome_bind (I := Rpc) replies x.run next,
    Dialogue.questions_bind (I := Rpc) replies x.run next⟩

section Bind

variable {f : α → ExceptT NodeError (Dialogue Rpc) β}

theorem Runs.bind_ok {final : Except NodeError β} (first : Runs replies x (.ok a) asked)
    (rest : Runs replies (f a) final later) : Runs replies (x >>= f) final (asked ++ later) :=
  first.append (ExceptT.bindCont f) rest

theorem Runs.bind_error (first : Runs replies x (.error e) asked) :
    Runs replies (x >>= f) (.error e) asked := by
  have h := first.append (ExceptT.bindCont f) (runs_lift (.error e))
  rwa [List.append_nil] at h

theorem questions_bind_silent (silent : ∀ a, Dialogue.questions (I := Rpc) replies (f a).run = []) :
    Dialogue.questions (I := Rpc) replies (x >>= f).run = Dialogue.questions (I := Rpc) replies x.run := by
  refine (Dialogue.questions_bind (I := Rpc) replies x.run _).trans ?_
  cases Dialogue.outcome (I := Rpc) replies x.run with
  | error e => exact List.append_nil _
  | ok a => exact (congrArg _ (silent a)).trans (List.append_nil _)

end Bind

section Catch

variable {recover : NodeError → ExceptT NodeError (Dialogue Rpc) α}

theorem tryCatch_eq :
    tryCatch x recover = ExceptT.mk (x.run.bind fun result => match result with
      | .ok a => (pure a : ExceptT NodeError (Dialogue Rpc) α)
      | .error e => recover e) := by
  refine congrArg (Dialogue.bind x.run) (funext fun result => ?_)
  cases result with
  | ok a => rfl
  | error e => rfl

theorem Runs.catch_ok (first : Runs replies x (.ok a) asked) :
    Runs replies (tryCatch x recover) (.ok a) asked := by
  rw [tryCatch_eq, ← List.append_nil asked]
  exact first.append _ (runs_pure a)

theorem Runs.catch_error {final : Except NodeError α} (first : Runs replies x (.error e) asked)
    (rest : Runs replies (recover e) final later) :
    Runs replies (tryCatch x recover) final (asked ++ later) := by
  rw [tryCatch_eq]
  exact first.append _ rest

end Catch

end Answers

end Countersign.Node
