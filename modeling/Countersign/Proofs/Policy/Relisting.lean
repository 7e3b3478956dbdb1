import Countersign.Proofs.Policy.Conflict
import Countersign.Proofs.Staking.KeyOrder

/-!
# Members who list each other differently

Every member of a committee configures the keys of all of them, each in an order of their own. Their
services judge alike: two runs that are answered alike, up to the order of the keys in the parameters, put
the same questions, the order to the backend among them, and end in the same verdict.
-/

set_option autoImplicit false

namespace Countersign

/-- The same parameters but for the order in which the committee is listed. -/
structure Parameters.Relisted (p q : Parameters) : Prop where
  keys : p.covenantKeys.Perm q.covenantKeys
  rest : q = { p with covenantKeys := q.covenantKeys }

namespace Policy

section Judging

variable {p q : Parameters} (relisted : p.Relisted q)

include relisted

theorem committee_perm : p.committee.Perm q.committee := relisted.keys.map _

theorem checkMember_relisted (key : PublicKey) (height : UInt32) :
    checkMember p key height = checkMember q key height := by
  simp only [checkMember, Parameters.isMember, List.contains_iff_mem, relisted.keys.mem_iff]

theorem unbondingTerms_agree (stake : Stake) :
    (unbondingTerms p stake).Agree (unbondingTerms q stake) := by
  refine ⟨rfl, ?_, ?_, committee_perm relisted, .refl _⟩
  · rw [relisted.rest]
    rfl
  · rw [relisted.rest]
    rfl

theorem judge_relisted (network : Network) (r : UnbondingRequest) (input : TxIn) (output : TxOut)
    (inclusion : Inclusion) (tip : UInt32) :
    judge network r input output inclusion tip p = judge network r input output inclusion tip q := by
  have mature : ∀ txid, checkMature p txid = checkMature q txid := by
    rw [relisted.rest]
    exact fun _ => rfl
  have bounds : checkBounds p = checkBounds q := by
    rw [relisted.rest]
    rfl
  have left : remainder p = remainder q := by
    rw [relisted.rest]
    rfl
  have tag : p.tag = q.tag := by rw [relisted.rest]
  have quorum : p.quorum = q.quorum := by rw [relisted.rest]
  have announced : ∀ a, (Stake.announcedTerms a p.committee q.quorum).Agree
      (Stake.announcedTerms a q.committee q.quorum) :=
    fun a => Stake.announcedTerms_agree (committee_perm relisted) a q.quorum
  simp only [judge, checkMember_relisted relisted, mature, bounds, left, tag, quorum,
    Stake.recognise_perm (committee_perm relisted),
    LockedOutput.build_eq_of_agree (unbondingTerms_agree relisted _),
    LockedOutput.build_eq_of_agree (announced _)]

end Judging

/-- Two runs that put the same questions and end alike. -/
structure Alike {α : Type} (answers answers' : Answers)
    (d d' : ExceptT PolicyError (Dialogue Inquiries) α) : Prop where
  asked : asked answers d = asked answers' d'
  verdict : verdict answers d = verdict answers' d'

namespace Alike

variable {α β : Type} {answers answers' : Answers}
  {f g : α → ExceptT PolicyError (Dialogue Inquiries) β}

theorem settled (e : Except PolicyError α) (later : ∀ a, e = .ok a → Alike answers answers' (f a) (g a)) :
    Alike answers answers' (settle e >>= f) (settle e >>= g) := by
  cases e with
  | error e => exact ⟨rfl, rfl⟩
  | ok a => exact later a rfl

theorem consulted {q : Inquiry} {accept : q.Answer → Except PolicyError α}
    (here : accept (answers q) = accept (answers' q) ∧
        (∀ a, accept (answers q) = .ok a → Alike answers answers' (f a) (g a)) ∨
      ∃ a b, accept (answers q) = .ok a ∧ accept (answers' q) = .ok b ∧
        Alike answers answers' (f a) (g b)) :
    Alike answers answers' (consult q accept >>= f) (consult q accept >>= g) := by
  constructor
  · rw [asked_consult, asked_consult]
    rcases here with ⟨same, later⟩ | ⟨a, b, ha, hb, later⟩
    · rw [← same]
      cases h : accept (answers q) with
      | error e => rfl
      | ok a => exact congrArg _ (later a h).asked
    · rw [ha, hb]
      exact congrArg _ later.asked
  · rw [verdict_consult, verdict_consult]
    rcases here with ⟨same, later⟩ | ⟨a, b, ha, hb, later⟩
    · rw [← same]
      cases h : accept (answers q) with
      | error e => rfl
      | ok a => exact (later a h).verdict
    · rw [ha, hb]
      exact later.verdict

theorem consulted_same {q : Inquiry} {accept : q.Answer → Except PolicyError α}
    (same : answers q = answers' q)
    (later : ∀ a, accept (answers q) = .ok a → Alike answers answers' (f a) (g a)) :
    Alike answers answers' (consult q accept >>= f) (consult q accept >>= g) :=
  consulted (.inl ⟨by rw [same], later⟩)

end Alike

/-- The same answers, but that committees may be listed in another order. -/
structure Relisted (answers answers' : Answers) : Prop where
  transaction : ∀ txid script, answers (.transaction txid script) = answers' (.transaction txid script)
  tip : answers .tip = answers' .tip
  parameters : ∀ height, answers (.parameters height) = answers' (.parameters height) ∨
    ∃ p q : Parameters, p.Relisted q ∧ answers (.parameters height) = .ok p ∧
      answers' (.parameters height) = .ok q
  signature : ∀ request, answers (.signature request) = answers' (.signature request)

theorem sign_alike {answers answers' : Answers} (relisted : Relisted answers answers')
    (network : Network) (r : UnbondingRequest) :
    Alike answers answers' (sign network r) (sign network r) := by
  have last : ∀ request : SigningRequest, Alike answers answers'
      (consult (.signature request) (Except.mapError .backend))
      (consult (.signature request) (Except.mapError .backend)) := by
    intro request
    exact ⟨rfl, congrArg (Except.mapError PolicyError.backend) (relisted.signature request)⟩
  refine .settled _ ?_
  rintro ⟨input, output⟩ -
  refine .settled _ fun _ _ => ?_
  refine .consulted_same (relisted.transaction _ _) fun inclusion _ => ?_
  refine .consulted_same relisted.tip fun tip _ => ?_
  refine .consulted ?_
  rcases relisted.parameters inclusion.height.toUInt64 with same | ⟨p, q, hpq, hp, hq⟩
  · refine .inl ⟨by rw [same], fun p _ => ?_⟩
    exact .settled _ fun request _ => last request
  · refine .inr ⟨p, q, by rw [hp]; rfl, by rw [hq]; rfl, ?_⟩
    rw [judge_relisted hpq]
    exact .settled _ fun request _ => last request

/-- Outputs, stakes and verdicts depend on who is in a group, and not on the order in which its members
are listed. -/
theorem key_order_immaterial :
    (∀ (kind : LockKind) (t u : Terms) (value : Amount), t.Agree u →
      LockedOutput.build kind t value = LockedOutput.build kind u value) ∧
    (∀ (tx : Transaction) (tag : Bytes) (quorum : UInt32) (covenants covenants' : List XOnlyKey),
      covenants.Perm covenants' →
      Stake.recognise tx tag covenants quorum = Stake.recognise tx tag covenants' quorum) ∧
    ∀ (network : Network) (r : UnbondingRequest) (answers answers' : Answers),
      Relisted answers answers' →
      asked answers (sign network r) = asked answers' (sign network r) ∧
      verdict answers (sign network r) = verdict answers' (sign network r) := by
  refine ⟨fun kind t u value agree => LockedOutput.build_eq_of_agree agree kind value,
    fun tx tag quorum _ _ listed => Stake.recognise_perm listed tx tag quorum, ?_⟩
  intro network r answers answers' relisted
  have alike := sign_alike relisted network r
  exact ⟨alike.asked, alike.verdict⟩

end Policy

namespace Sample

open Policy

def reversed (p : Parameters) : Parameters := { p with covenantKeys := p.covenantKeys.reverse }

theorem reversed_relisted (p : Parameters) : p.Relisted (reversed p) :=
  ⟨(List.reverse_perm p.covenantKeys).symm, rfl⟩

def reversedAnswers (tip : UInt32) : Answers
  | .parameters height => (schedule.parametersAt height).map reversed
  | q => answers tip q

theorem answers_relisted (tip : UInt32) : Relisted (answers tip) (reversedAnswers tip) := by
  refine ⟨fun _ _ => rfl, rfl, fun height => ?_, fun _ => rfl⟩
  have here : answers tip (.parameters height) = schedule.parametersAt height := rfl
  have there : reversedAnswers tip (.parameters height) =
      (schedule.parametersAt height).map reversed := rfl
  rw [here, there]
  cases schedule.parametersAt height with
  | error e => exact .inl rfl
  | ok p => exact .inr ⟨p, reversed p, reversed_relisted p, rfl, rfl⟩

theorem terms_agree (lockTime : UInt16) :
    (Stake.terms staker provider committee.reverse 2 lockTime).Agree (terms lockTime) :=
  ⟨rfl, rfl, rfl, List.reverse_perm committee, .refl _⟩

end Sample

namespace Policy

open Sample in
theorem sample_key_order :
    LockedOutput.build .staking (Stake.terms staker provider committee.reverse 2 1000) 100000 =
        .ok (staking 100000) ∧
      Stake.recognise (plan.within surroundings) tag.bytes committee.reverse 2 =
        Stake.recognise (plan.within surroundings) tag.bytes committee 2 ∧
      ∃ request, Inquiry.signature request ∈
        asked (reversedAnswers 209) (sign .signet (signedRequest 2 version_two 5 ⟨first, false⟩)) := by
  obtain ⟨built, recognised, signed⟩ := key_order_immaterial
  have member : (⟨first, false⟩ : PublicKey) ∈ parameters.covenantKeys := by decide
  have mature : 209 ≤ (209 : UInt32).toNat := by decide
  refine ⟨?_, recognised _ _ _ _ _ (List.reverse_perm committee), ?_⟩
  · rw [built _ _ _ _ (terms_agree 1000)]
    exact staking_built 100000
  · rw [← (signed _ _ _ _ (answers_relisted 209)).1]
    exact approved 2 version_two .signet 5 (by decide) member mature

end Policy

end Countersign
