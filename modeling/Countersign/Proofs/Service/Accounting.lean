import Mathlib.Algebra.BigOperators.Group.List.Basic
import Countersign.Proofs.Policy.Attribution
import Countersign.Proofs.Service.Serving
import Countersign.Proofs.Service.WireCodec

/-!
# What the counters account for

Whatever a task does is counted in the shared counters at once, so they are the sum of what the tasks have
counted, in whatever order they moved. What one task counts is fixed by its request and its answer, unless
it is cut off: it has then counted that it was received, and how it ended is counted nowhere. The counters
balance over the requests that were not.
-/

set_option autoImplicit false

namespace Countersign

open Outcome

namespace Counters

def value (counters : Counters) : Counter → ℕ
  | .received => counters.received
  | .succeeded => counters.succeeded
  | .failed => counters.failed

theorem value_elim (counters : Counters) (counts : Option Counter) (c : Counter) :
    (counts.elim counters counters.increment).value c = counters.value c + counts.toList.count c := by
  cases counts with
  | none => rfl
  | some k => cases k <;> cases c <;> rfl

end Counters

/-- The body of the request is a well-formed signing request, and it gets to be read. -/
structure HttpRequest.WellFormed (limits : ServiceLimits) (r : HttpRequest) : Prop where
  path : r.path = Server.signPath
  method : r.method = "POST"
  screened : Server.screen limits r = .ok ()
  buffered : ¬ Server.maxBuffered < r.body.length
  parsed : ∃ q, WireRequest.decode r.body >>= WireRequest.parse = .ok q

theorem ApiError.status_ne (e : ApiError) : e.answer.status ≠ 200 := by
  cases e with
  | _ => simp [answer, status, HttpResponse.json]

namespace Serving

/-- Whatever the answers are, the rest of a dialogue leaves what is due, and it waits only with what may be
pending. -/
def Closes (due : List Counter → HttpResponse → Prop) (pending : List Counter → Prop) :
    List Counter → Dialogue Service HttpResponse → Prop
  | counted, .done response => due counted response
  | counted, .ask (.count c) next => Closes due pending (counted ++ [c]) (next ())
  | counted, .ask (.report _) next => Closes due pending counted (next ())
  | counted, .ask (.inquire _) next => pending counted ∧ ∀ answer, Closes due pending counted (next answer)

/-- What a request of some course and some answer has counted. -/
inductive Due (limits : ServiceLimits) (r : HttpRequest) : Course → List Counter → HttpResponse → Prop where
  | signed {response : HttpResponse} (wellFormed : r.WellFormed limits) (status : response.status = 200) :
      Due limits r .inTime [.received, .succeeded] response
  | refused {response : HttpResponse} (wellFormed : r.WellFormed limits) (status : response.status ≠ 200) :
      Due limits r .inTime [.received, .failed] response
  | malformed {response : HttpResponse} (malformed : ¬ r.WellFormed limits)
      (status : response.status ≠ 200) : Due limits r .inTime [] response
  | unread {response : HttpResponse} (status : response.status = 500) : Due limits r .unread [] response
  | cutOff {response : HttpResponse} (wellFormed : r.WellFormed limits) (status : response.status = 500) :
      Due limits r .cutOff [.received] response

/-- Only well-formed requests wait for answers, and they have been counted when they do. -/
def Pending (limits : ServiceLimits) (r : HttpRequest) : Course → List Counter → Prop
  | .inTime, counted => r.WellFormed limits ∧ counted = [.received]
  | _, _ => False

section Dialogues

variable {due : List Counter → HttpResponse → Prop} {pending : List Counter → Prop} {counted : List Counter}

theorem fail_closes {e : ApiError} (h : due counted e.answer) :
    Closes due pending counted (Server.fail e) := by
  cases e with
  | internal message => exact h
  | _ => exact h

theorem decide_closes {network : Network} {q : UnbondingRequest}
    {f : Except PolicyError Signature → Dialogue Service HttpResponse} (waits : pending counted)
    (h : ∀ outcome, Closes due pending counted (f outcome)) :
    Closes due pending counted ((Server.decide network q).bind f) := by
  unfold Server.decide
  induction (Policy.sign network q).run with
  | done outcome => exact h outcome
  | ask q next ih => exact ⟨waits, fun answer => ih answer⟩

end Dialogues

section Handling

variable {network : Network} {limits : ServiceLimits} {r : HttpRequest}

theorem signRequest_closes (wellFormed : r.WellFormed limits) (q : UnbondingRequest) :
    Closes (Due limits r .inTime) (Pending limits r .inTime) [] (Server.signRequest network q) := by
  refine decide_closes ⟨wellFormed, rfl⟩ fun outcome => ?_
  cases outcome with
  | ok signature => exact .signed wellFormed rfl
  | error e => exact fail_closes (.refused wellFormed (ApiError.status_ne _))

theorem handle_closes (network : Network) (limits : ServiceLimits) (r : HttpRequest) :
    Closes (Due limits r .inTime) (Pending limits r .inTime) [] (Server.handle network limits r) := by
  unfold Server.handle
  split
  · rename_i path
    exact .malformed (fun h => path h.path) (by decide)
  rename_i path
  split
  · rename_i method
    split
    · rename_i e screened
      refine fail_closes (.malformed (fun h => ?_) e.status_ne)
      rw [h.screened] at screened
      cases screened
    · rename_i screened
      unfold Server.handleBody
      split
      · rename_i buffered
        exact .malformed (fun h => h.buffered buffered) (by decide)
      rename_i buffered
      split
      · rename_i q parsed
        exact signRequest_closes ⟨not_not.mp path, method, screened, buffered, q, parsed⟩ q
      · rename_i e parsed
        refine fail_closes (.malformed (fun h => ?_) (ApiError.status_ne _))
        obtain ⟨q, hq⟩ := h.parsed
        rw [hq] at parsed
        cases parsed
  · rename_i method
    refine .malformed (fun h => method h.method) ?_
    cases Server.screen limits r with
    | error e => exact e.status_ne
    | ok u => exact (by decide : (405 : ℕ) ≠ 200)

end Handling

/-- Once its body is read, the rest of a task closes as its course has it. -/
def Task.Booked (limits : ServiceLimits) (t : Task) : Prop :=
  ∀ d, t.rest = some d →
    Closes (Due limits t.request t.course) (Pending limits t.request t.course) t.counted d

section Moving

variable {network : Network} {limits : ServiceLimits} {t t' : Task} {counts : Option Counter}
  (moves : t.Moves network limits counts t')

include moves

theorem Task.Moves.booked (booked : t.Booked limits) : t'.Booked limits := by
  cases moves with
  | begin =>
    rintro _ ⟨⟩
    exact handle_closes network limits _
  | count =>
    rintro _ ⟨⟩
    exact booked _ rfl
  | report =>
    rintro _ ⟨⟩
    have h := booked _ rfl
    exact h
  | inquire answer =>
    rintro _ ⟨⟩
    exact (booked _ rfl).2 answer
  | stopReading =>
    rintro _ ⟨⟩
    exact fail_closes (.unread rfl)
  | stopDeciding =>
    rintro _ ⟨⟩
    obtain ⟨wellFormed, rfl⟩ := (booked _ rfl).1
    exact fail_closes (.cutOff wellFormed rfl)

theorem Task.Moves.counted_eq : t'.counted = t.counted ++ counts.toList := by
  cases moves with
  | count => rfl
  | _ => simp [Task.arrived]

end Moving

namespace State

/-- Every task is in order, and the counters are the sum of what the tasks have counted. -/
structure Booked (limits : ServiceLimits) (s : State) : Prop where
  tasks : ∀ t ∈ s.tasks, t.Booked limits
  counters : ∀ c, s.counters.value c = (s.tasks.flatMap Task.counted).count c

variable {network : Network} {limits : ServiceLimits} {s s' : State}

theorem Step.booked (step : Step network limits s s') (booked : s.Booked limits) : s'.Booked limits := by
  cases step with
  | arrive r =>
    refine ⟨?_, ?_⟩
    · intro t ht
      rcases List.mem_append.mp ht with ht | ht
      · exact booked.tasks t ht
      · rw [List.mem_singleton.mp ht]
        exact nofun
    · intro c
      simpa [Task.arrived] using booked.counters c
  | move moves =>
    obtain ⟨tasks, counters⟩ := booked
    simp only [List.forall_mem_append, List.forall_mem_cons] at tasks
    refine ⟨?_, ?_⟩
    · simp only [List.forall_mem_append, List.forall_mem_cons]
      exact ⟨tasks.1, moves.booked tasks.2.1, tasks.2.2⟩
    · intro c
      have h := counters c
      simp only [List.flatMap_append, List.flatMap_cons, List.count_append, moves.counted_eq,
        Counters.value_elim] at h ⊢
      omega

theorem Reached.booked (reached : Reached network limits s) : s.Booked limits := by
  induction reached with
  | refl => exact ⟨nofun, fun c => by cases c <;> rfl⟩
  | tail _ step ih => exact step.booked ih

end State

namespace Task

def Parsed (limits : ServiceLimits) (t : Task) : Prop := t.course ≠ .unread ∧ t.request.WellFormed limits

def Signed (t : Task) : Prop := ∃ response, t.Answered response ∧ response.status = 200

def CutOff (t : Task) : Prop := t.course = .cutOff

theorem Booked.due {limits : ServiceLimits} {t : Task} (booked : t.Booked limits)
    {response : HttpResponse} (answered : t.Answered response) :
    Due limits t.request t.course t.counted response := booked _ answered

open Classical in
noncomputable def one (kind : Task → Prop) (t : Task) : ℕ := if kind t then 1 else 0

theorem Booked.shares {limits : ServiceLimits} {t : Task} (booked : t.Booked limits)
    (answered : ∃ response, t.Answered response) :
    t.counted.count .received = one (Parsed limits) t ∧
      t.counted.count .succeeded = one Signed t ∧
      t.counted.count .failed + one CutOff t = one (fun t => t.Parsed limits ∧ ¬ t.Signed) t ∧
      t.counted.count .received = t.counted.count .succeeded + t.counted.count .failed + one CutOff t := by
  obtain ⟨response, answered⟩ := answered
  have signed : t.Signed ↔ response.status = 200 := by
    constructor
    · rintro ⟨other, again, status⟩
      rw [Answered, answered] at again
      cases again
      exact status
    · intro status
      exact ⟨response, answered, status⟩
  have due := booked.due answered
  have parsed : t.Parsed limits ↔ t.course ≠ .unread ∧ t.request.WellFormed limits := Iff.rfl
  have cut : t.CutOff ↔ t.course = .cutOff := Iff.rfl
  obtain ⟨r, course, counted, rest⟩ := t
  cases due with
  | signed wellFormed status =>
    simp [one, parsed, cut, signed, wellFormed, status]
  | refused wellFormed status =>
    simp [one, parsed, cut, signed, wellFormed, status]
  | malformed malformed status =>
    simp [one, parsed, cut, signed, malformed, status]
  | unread status =>
    simp [one, parsed, cut, signed, status]
  | cutOff wellFormed status =>
    simp [one, parsed, cut, signed, wellFormed, status]

theorem one_le (kind : Task → Prop) (t : Task) : one kind t ≤ 1 := by
  unfold one
  split
  · exact Nat.le_refl 1
  · exact Nat.zero_le 1

/-- No request moves a counter twice. -/
theorem Booked.count_le {limits : ServiceLimits} {t : Task} (booked : t.Booked limits)
    (answered : ∃ response, t.Answered response) (c : Counter) : t.counted.count c ≤ 1 := by
  obtain ⟨received, succeeded, failed, -⟩ := booked.shares answered
  cases c with
  | received => exact received ▸ one_le _ t
  | succeeded => exact succeeded ▸ one_le _ t
  | failed => exact Nat.le_trans (Nat.le_add_right _ _) (failed ▸ one_le _ t)

end Task

namespace State

variable {network : Network} {limits : ServiceLimits} {s : State}

theorem number_eq_sum (kind : Task → Prop) : s.number kind = (s.tasks.map (Task.one kind)).sum := by
  unfold number Task.one
  induction s.tasks with
  | nil => rfl
  | cons t tasks ih =>
    rw [List.countP_cons, ih, List.map_cons, List.sum_cons, add_comm]
    by_cases h : kind t
    · simp [h]
    · simp [h]

theorem sum_eq_number {kind : Task → Prop} {f : Task → ℕ} (h : ∀ t ∈ s.tasks, f t = Task.one kind t) :
    (s.tasks.map f).sum = s.number kind := by
  rw [number_eq_sum]
  exact congrArg List.sum (List.map_congr_left h)

theorem Booked.value_eq (booked : s.Booked limits) (c : Counter) :
    s.counters.value c = (s.tasks.map fun t => t.counted.count c).sum := by
  rw [booked.counters, List.count_flatMap]
  rfl

/-- As long as fewer than 2^64 requests came in, 64 bits are enough for each counter. -/
theorem value_le_length (reached : Reached network limits s) (quiet : s.Quiet) (c : Counter) :
    s.counters.value c ≤ s.tasks.length := by
  have booked := reached.booked
  have once : ∀ k ∈ s.tasks.map fun t => t.counted.count c, k ≤ 1 := by
    intro k hk
    obtain ⟨t, ht, rfl⟩ := List.mem_map.mp hk
    exact (booked.tasks t ht).count_le (quiet t ht) c
  rw [booked.value_eq]
  simpa using List.sum_le_card_nsmul _ 1 once

theorem number_eq_zero {kind : Task → Prop} : s.number kind = 0 ↔ ∀ t ∈ s.tasks, ¬ kind t := by
  simp only [number, List.countP_eq_zero, decide_eq_true_eq]

/-- Once no request is in progress, the counters account for every request, but for how those ended that
were cut off: well-formed requests, answered with an error, that nothing was counted for after they came in.
So the counters balance exactly if there were none. -/
theorem counters_account (reached : Reached network limits s) (quiet : s.Quiet) :
    s.counters.received = s.number (Task.Parsed limits) ∧
      s.counters.succeeded = s.number Task.Signed ∧
      s.counters.failed + s.number Task.CutOff = s.number (fun t => t.Parsed limits ∧ ¬ t.Signed) ∧
      s.counters.received = s.counters.succeeded + s.counters.failed + s.number Task.CutOff ∧
      (s.counters.received = s.counters.succeeded + s.counters.failed ↔ ∀ t ∈ s.tasks, ¬ t.CutOff) ∧
      ∀ t ∈ s.tasks, t.CutOff → t.Parsed limits ∧ t.counted = [.received] ∧
        ∃ response, t.Answered response ∧ response.status = 500 := by
  have booked := reached.booked
  have shares := fun t ht => (booked.tasks t ht).shares (quiet t ht)
  have received := booked.value_eq .received
  have succeeded := booked.value_eq .succeeded
  have failed := booked.value_eq .failed
  simp only [Counters.value] at received succeeded failed
  have balance : s.counters.received = s.counters.succeeded + s.counters.failed + s.number Task.CutOff := by
    simp only [number_eq_sum, received, succeeded, failed, ← List.sum_map_add]
    exact congrArg List.sum (List.map_congr_left fun t ht => (shares t ht).2.2.2)
  refine ⟨?_, ?_, ?_, balance, ?_, ?_⟩
  · exact received.trans (sum_eq_number fun t ht => (shares t ht).1)
  · exact succeeded.trans (sum_eq_number fun t ht => (shares t ht).2.1)
  · rw [failed, number_eq_sum Task.CutOff, ← List.sum_map_add]
    exact sum_eq_number fun t ht => (shares t ht).2.2.1
  · rw [← number_eq_zero]
    omega
  · intro t ht cut
    obtain ⟨response, answered⟩ := quiet t ht
    have due := (booked.tasks t ht).due answered
    obtain ⟨r, course, counted, rest⟩ := t
    obtain rfl : course = .cutOff := cut
    cases due with
    | cutOff wellFormed status => exact ⟨⟨nofun, wellFormed⟩, rfl, response, answered, status⟩

end State

section Waiting

variable {network : Network} {limits : ServiceLimits} {q : UnbondingRequest}

theorem handle_of_wellFormed {r : HttpRequest} (wellFormed : r.WellFormed limits)
    (parsed : WireRequest.decode r.body >>= WireRequest.parse = .ok q) :
    Server.handle network limits r = Server.signRequest network q := by
  rw [Server.handle, if_neg (not_not.mpr wellFormed.path), if_pos wellFormed.method, wellFormed.screened]
  show Server.handleBody network r.body = _
  rw [Server.handleBody, if_neg wellFormed.buffered, parsed]

theorem signRequest_waits {input : TxIn} {output : TxOut}
    (shape : q.transaction.AwaitsSignature input output) (taproot : Script.isTaproot q.stakingScript = true) :
    ∃ next, Server.signRequest network q = .ask (.count .received) fun _ =>
      .ask (.inquire (.transaction input.previous.txid q.stakingScript)) next := by
  have parts : q.transaction.awaitingSignature = .ok (input, output) :=
    Transaction.awaitingSignature_eq_ok.mpr shape
  unfold Server.signRequest Server.decide Policy.sign
  rw [parts, taproot]
  exact ⟨_, rfl⟩

end Waiting

end Serving

namespace Sample

open Policy Serving

def spending : TxIn := ⟨⟨⟨List.replicate 32 5, rfl⟩, 1⟩, [], 0xffffffff, []⟩

def waiting : UnbondingRequest :=
  ⟨(staking 100000).script, ⟨2, [spending], [(unbonding 99000).txOut], 0⟩, approval, ⟨first, false⟩⟩

def posted : HttpRequest := ⟨"POST", Server.signPath, [], (WireRequest.ofRequest waiting).encode⟩

def limits : ServiceLimits := ⟨10000, none⟩

theorem waiting_parsed : (WireRequest.ofRequest waiting).parse = .ok waiting := by
  have short : waiting.transaction.encode.length ≤ Transaction.maxTextBytes := by decide +kernel
  exact WireRequest.parse_eq_ok_iff.mpr ⟨WireRequest.lower_ofRequest.symm, short⟩

theorem posted_parsed : WireRequest.decode posted.body >>= WireRequest.parse = .ok waiting :=
  bind_eq_ok.mpr ⟨_, WireRequest.decode_encode _, waiting_parsed⟩

theorem posted_short : ¬ 10000 < posted.body.length := by
  simp only [posted, WireRequest.encode, WireRequest.toJson, WireRequest.ofRequest, WireRequest.fields,
    Json.ofMembers, Json.ofText, Transaction.text, Hex.utf8_encode]
  decide +kernel

theorem posted_wellFormed : posted.WellFormed limits := by
  refine ⟨rfl, rfl, ?_, ?_, waiting, posted_parsed⟩
  · have fits : Server.isTooLarge limits posted = false := by
      rw [Server.isTooLarge, show posted.header? "Content-Length" = none from rfl]
      simp only [Option.bind_none, Option.any_none, Bool.false_or, decide_eq_false_iff_not]
      exact posted_short
    rw [Server.screen, fits]
    rfl
  · intro h
    exact posted_short (Nat.lt_trans (by decide) h)

/-- What is left when the only request there was timed out while it was looked up. -/
def timedOut : State :=
  ⟨⟨1, 0, 0⟩, [⟨posted, .cutOff, [.received], some (.done (ApiError.internal "request timed out").answer)⟩]⟩

theorem timedOut_reached : State.Reached .signet limits timedOut := by
  have shape : waiting.transaction.AwaitsSignature spending (unbonding 99000).txOut :=
    ⟨rfl, rfl, by decide, rfl, rfl, rfl, rfl, .inr rfl⟩
  obtain ⟨next, waits⟩ := @signRequest_waits .signet waiting _ _ shape (by decide +kernel)
  have handled := (handle_of_wellFormed posted_wellFormed posted_parsed).trans waits
  have begun : Task.Moves .signet limits (.arrived posted) none
      ⟨posted, .inTime, [], some (Server.handle .signet limits posted)⟩ := .begin
  rw [handled] at begun
  have arrived : State.Reached .signet limits ⟨.zero, [.arrived posted]⟩ := .single (.arrive posted)
  exact ((((arrived.tail (.alone begun)).tail (.alone .count)).tail (.alone .stopDeciding)).tail
    (.alone .report))

theorem timedOut_quiet : timedOut.Quiet := by
  intro t ht
  rw [List.mem_singleton.mp ht]
  exact ⟨_, rfl⟩

end Sample

namespace Serving

open Sample in
theorem sample_counters_account :
    timedOut.number (Task.Parsed limits) = 1 ∧ timedOut.number Task.Signed = 0 ∧
      timedOut.number Task.CutOff = 1 ∧ timedOut.counters.failed = 0 := by
  obtain ⟨received, succeeded, -, balance, -, -⟩ :=
    State.counters_account timedOut_reached timedOut_quiet
  exact ⟨received.symm, succeeded.symm, (balance.trans (Nat.zero_add _)).symm, rfl⟩

open Sample in
/-- Who is cut off has failed, and it is not counted. -/
theorem failures_not_counted : ¬ ∀ (network : Network) (limits : ServiceLimits) (s : State),
    State.Reached network limits s → s.Quiet →
      s.counters.received = s.number (Task.Parsed limits) ∧
      s.counters.succeeded = s.number Task.Signed ∧
      s.counters.failed = s.number (fun t => t.Parsed limits ∧ ¬ t.Signed) ∧
      s.counters.received = s.counters.succeeded + s.counters.failed := by
  intro h
  obtain ⟨-, -, -, balance⟩ := h .signet limits timedOut timedOut_reached timedOut_quiet
  cases balance

end Serving

end Countersign
