import Countersign.Proofs.Policy.Judgement

/-!
# When the backend is asked to sign

An approval rests on grounds: the parts of the transaction, what the chain and the parameters answered,
and the stake and the two outputs that follow from them. The backend is asked exactly when some grounds
sustain the request, whatever everyone answers and whatever the network.
-/

set_option autoImplicit false

namespace Countersign.Policy

open Outcome

structure Grounds where
  input : TxIn
  output : TxOut
  inclusion : Inclusion
  tip : UInt32
  parameters : Parameters
  stake : Stake
  /-- What the unbonding transaction has to pay to. -/
  unbonding : LockedOutput
  /-- What the unbonding transaction spends. -/
  staking : LockedOutput

structure Grounds.Sustain (g : Grounds) (r : UnbondingRequest) (answers : Answers) : Prop where
  shape : r.transaction.AwaitsSignature g.input g.output
  taproot : ∃ key : Bytes, key.length = 32 ∧ r.stakingScript = 0x51 :: 0x20 :: key
  included : answers (.transaction g.input.previous.txid r.stakingScript) = .ok g.inclusion
  tip : answers .tip = .ok g.tip
  parameters : answers (.parameters g.inclusion.height.toUInt64) = .ok g.parameters
  merits : Merits r g.input g.output g.inclusion g.tip g.parameters g.stake g.unbonding g.staking

theorem isTaproot_iff (s : Script) :
    Script.isTaproot s = true ↔ ∃ key : Bytes, key.length = 32 ∧ s = 0x51 :: 0x20 :: key := by
  unfold Script.isTaproot
  constructor
  · intro h
    rcases s with _ | ⟨a, _ | ⟨b, key⟩⟩
    · simp at h
    · simp at h
    · simp only [List.length_cons, List.take_succ_cons, List.take_zero, Bool.and_eq_true,
        beq_iff_eq, List.cons.injEq, and_true] at h
      obtain ⟨hl, rfl, rfl⟩ := h
      exact ⟨key, by omega, rfl⟩
  · intro h
    obtain ⟨key, hl, rfl⟩ := h
    simp [hl]

variable {network : Network} {r : UnbondingRequest} {answers : Answers}

section Sustained

variable {g : Grounds} {path : RevealedLeaf} (s : g.Sustain r answers)
  (revealed : g.staking.unbondingPath = .ok path)

include s

theorem Grounds.Sustain.shape_ok :
    r.transaction.awaitingSignature.mapError PolicyError.malformedTransaction =
      .ok (g.input, g.output) :=
  mapError_eq_ok.mpr (Transaction.awaitingSignature_eq_ok.mpr s.shape)

theorem Grounds.Sustain.taproot_ok :
    (if Script.isTaproot r.stakingScript then .ok () else .error .notTaproot :
      Except PolicyError Unit) = .ok () :=
  require_eq_ok.mpr ((isTaproot_iff _).mpr s.taproot)

include revealed

theorem Grounds.Sustain.judge_ok :
    judge network r g.input g.output g.inclusion g.tip g.parameters =
      .ok (order network r g.stake path) :=
  (judge_eq_ok s.shape).mpr ⟨g.stake, g.unbonding, g.staking, path, s.merits, revealed, rfl⟩

/-- A request with grounds is put to the backend after three lookups, and to nobody else. -/
theorem asked_of_sustain :
    asked answers (sign network r) =
      [.transaction g.input.previous.txid r.stakingScript, .tip,
        .parameters g.inclusion.height.toUInt64, .signature (order network r g.stake path)] := by
  unfold sign
  refine (asked_settle_ok answers _ s.shape_ok).trans ?_
  refine (asked_settle_ok answers _ s.taproot_ok).trans ?_
  refine (asked_consult_ok answers _ (mapError_eq_ok.mpr s.included)).trans (congrArg _ ?_)
  refine (asked_consult_ok answers _ (mapError_eq_ok.mpr s.tip)).trans (congrArg _ ?_)
  refine (asked_consult_ok answers _ (mapError_eq_ok.mpr s.parameters)).trans (congrArg _ ?_)
  exact asked_settle_ok answers _ (s.judge_ok revealed)

theorem verdict_of_sustain :
    verdict answers (sign network r) =
      Except.mapError .backend (answers (.signature (order network r g.stake path))) := by
  unfold sign
  refine (verdict_settle_ok answers _ s.shape_ok).trans ?_
  refine (verdict_settle_ok answers _ s.taproot_ok).trans ?_
  refine (verdict_consult_ok answers _ (mapError_eq_ok.mpr s.included)).trans ?_
  refine (verdict_consult_ok answers _ (mapError_eq_ok.mpr s.tip)).trans ?_
  refine (verdict_consult_ok answers _ (mapError_eq_ok.mpr s.parameters)).trans ?_
  exact verdict_settle_ok answers _ (s.judge_ok revealed)

end Sustained

theorem order_asked_iff (request : SigningRequest) :
    Inquiry.signature request ∈ asked answers (sign network r) ↔
      ∃ (g : Grounds) (path : RevealedLeaf), g.Sustain r answers ∧
        g.staking.unbondingPath = .ok path ∧ request = order network r g.stake path := by
  constructor
  · intro h
    unfold sign at h
    obtain ⟨⟨input, output⟩, hshape, h⟩ := (mem_asked_settle answers _).mp h
    obtain ⟨_, htap, h⟩ := (mem_asked_settle answers _).mp h
    obtain ⟨inclusion, hinc, h⟩ := ((mem_asked_consult answers _).mp h).resolve_left (by simp)
    obtain ⟨tip, htip, h⟩ := ((mem_asked_consult answers _).mp h).resolve_left (by simp)
    obtain ⟨p, hp, h⟩ := ((mem_asked_consult answers _).mp h).resolve_left (by simp)
    obtain ⟨made, hj, h⟩ := (mem_asked_settle answers _).mp h
    have hmade : request = made := Inquiry.signature.inj ((mem_asked_last answers).mp h)
    subst hmade
    have shape := Transaction.awaitingSignature_eq_ok.mp (mapError_eq_ok.mp hshape)
    obtain ⟨stake, unbonding, staking, path, merits, revealed, rfl⟩ := (judge_eq_ok shape).mp hj
    exact ⟨⟨input, output, inclusion, tip, p, stake, unbonding, staking⟩, path,
      ⟨shape, (isTaproot_iff _).mp (require_eq_ok.mp htap), mapError_eq_ok.mp hinc,
        mapError_eq_ok.mp htip, mapError_eq_ok.mp hp, merits⟩, revealed, rfl⟩
  · intro h
    obtain ⟨g, path, s, revealed, rfl⟩ := h
    rw [asked_of_sustain s revealed]
    simp

/-- Every condition is needed and together they are enough. -/
theorem backend_asked_iff (network : Network) (r : UnbondingRequest) (answers : Answers) :
    (∃ request, Inquiry.signature request ∈ asked answers (sign network r)) ↔
      ∃ g : Grounds, g.Sustain r answers := by
  constructor
  · intro h
    obtain ⟨request, h⟩ := h
    obtain ⟨g, path, s, -⟩ := (order_asked_iff request).mp h
    exact ⟨g, s⟩
  · intro h
    obtain ⟨g, s⟩ := h
    obtain ⟨path, revealed, -⟩ := LockedOutput.unbondingPath_eq_ok s.merits.locked
    exact ⟨_, (order_asked_iff _).mpr ⟨g, path, s, revealed, rfl⟩⟩

end Countersign.Policy
