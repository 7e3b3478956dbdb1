import Mathlib.Data.Nat.Notation
import Mathlib.Logic.Relation
import Countersign.Service.Server

/-!
# Many requests at once

The service handles any number of requests, each a task of its own, and what they share is the counters. A
task moves when an answer comes or something is counted or reported, and tasks move in any order. Its time
may run out while its body is still on the way or while an inquiry is out, because a task is given up only
where it waits. What remains of its dialogue is dropped then, and the answer to a timeout takes its place.
-/

set_option autoImplicit false

namespace Countersign.Serving

/-- What became of the time that a request has. -/
inductive Course where
  | inTime
  /-- It ran out before the body was there. -/
  | unread
  /-- It ran out while the request was being decided. -/
  | cutOff

structure Task where
  request : HttpRequest
  course : Course
  /-- What has been counted for the request so far. -/
  counted : List Counter
  /-- What remains to be done, once the body has been read. -/
  rest : Option (Dialogue Service HttpResponse)

namespace Task

def arrived (r : HttpRequest) : Task := ⟨r, .inTime, [], none⟩

def Answered (t : Task) (response : HttpResponse) : Prop := t.rest = some (.done response)

/-- One move of one task, with what it counts. -/
inductive Moves (network : Network) (limits : ServiceLimits) : Task → Option Counter → Task → Prop where
  | begin {r : HttpRequest} :
      Moves network limits (arrived r) none ⟨r, .inTime, [], some (Server.handle network limits r)⟩
  | count {r : HttpRequest} {course : Course} {counted : List Counter} {c : Counter}
      {next : Unit → Dialogue Service HttpResponse} :
      Moves network limits ⟨r, course, counted, some (.ask (.count c) next)⟩ (some c)
        ⟨r, course, counted ++ [c], some (next ())⟩
  | report {r : HttpRequest} {course : Course} {counted : List Counter} {message : String}
      {next : Unit → Dialogue Service HttpResponse} :
      Moves network limits ⟨r, course, counted, some (.ask (.report message) next)⟩ none
        ⟨r, course, counted, some (next ())⟩
  | inquire {r : HttpRequest} {course : Course} {counted : List Counter} {q : Inquiry}
      {next : q.Answer → Dialogue Service HttpResponse} (answer : q.Answer) :
      Moves network limits ⟨r, course, counted, some (.ask (.inquire q) next)⟩ none
        ⟨r, course, counted, some (next answer)⟩
  | stopReading {r : HttpRequest} :
      Moves network limits (arrived r) none ⟨r, .unread, [], some Server.timedOut⟩
  | stopDeciding {r : HttpRequest} {counted : List Counter} {q : Inquiry}
      {next : q.Answer → Dialogue Service HttpResponse} :
      Moves network limits ⟨r, .inTime, counted, some (.ask (.inquire q) next)⟩ none
        ⟨r, .cutOff, counted, some Server.timedOut⟩

end Task

structure State where
  counters : Counters
  tasks : List Task

namespace State

def start : State := ⟨.zero, []⟩

/-- A request comes in, or some task moves. -/
inductive Step (network : Network) (limits : ServiceLimits) : State → State → Prop where
  | arrive {counters : Counters} {tasks : List Task} (r : HttpRequest) :
      Step network limits ⟨counters, tasks⟩ ⟨counters, tasks ++ [.arrived r]⟩
  | move {counters : Counters} {before after : List Task} {t t' : Task} {counts : Option Counter}
      (moves : t.Moves network limits counts t') :
      Step network limits ⟨counters, before ++ t :: after⟩
        ⟨counts.elim counters counters.increment, before ++ t' :: after⟩

theorem Step.alone {network : Network} {limits : ServiceLimits} {counters : Counters} {t t' : Task}
    {counts : Option Counter} (moves : t.Moves network limits counts t') :
    Step network limits ⟨counters, [t]⟩ ⟨counts.elim counters counters.increment, [t']⟩ :=
  @Step.move network limits counters [] [] t t' counts moves

def Reached (network : Network) (limits : ServiceLimits) : State → Prop :=
  Relation.ReflTransGen (Step network limits) start

def Quiet (s : State) : Prop := ∀ t ∈ s.tasks, ∃ response, t.Answered response

open Classical in
noncomputable def number (s : State) (kind : Task → Prop) : ℕ := s.tasks.countP fun t => decide (kind t)

end State

end Countersign.Serving
