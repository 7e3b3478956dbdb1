import Countersign.Proofs.Staking.Building
import Countersign.Proofs.Tapscript.Committee

/-!
# Who can spend a stake

The witness stacks that satisfy the leaf scripts of a staking output, each described exactly. Every
leaf takes the staker's signature first. The early exit and the punishment then take what the
committees have to leave, and the lock time must have passed where the staker spends alone. No stack
has anything to spare.
-/

set_option autoImplicit false

namespace Countersign.Tapscript

open Leaves

theorem isTrue_ofBool (b : Bool) : isTrue (ofBool b) = b := by
  cases b <;> rfl

namespace Setting

variable {c : Setting} {s : Stack}

theorem accepts_iff {script : Script} {is : List Instruction} (h : read script = some is) :
    c.accepts script s = true ↔ ∃ b, c.run is s = some [b] ∧ isTrue b = true := by
  unfold accepts
  rw [h, Option.bind_some]
  constructor
  · intro ha
    split at ha
    · rename_i b hb
      exact ⟨b, hb, ha⟩
    · cases ha
  · intro h
    obtain ⟨b, hb, ht⟩ := h
    rw [hb]
    exact ht

theorem accepts_committee {keys : List XOnlyKey} {quorum : UInt32} (hk : Quorate keys quorum)
    (hl : keys.length < 2 ^ 31) (before : List Script.Item) :
    c.accepts (Script.ofItems (before ++ committeeItems keys quorum false)) s = true ↔
      ∃ es, c.run (before.map ofItem) s = some es ∧ c.Ballot keys quorum.toNat es := by
  rw [accepts_iff (read_ofItems _), List.map_append]
  simp only [run_append, Option.bind_eq_some_iff, run_committee hk hl, ballot_iff hk]
  constructor
  · intro h
    obtain ⟨b, ⟨t, ht, es, r, rfl, hf, he⟩, hb⟩ := h
    cases he
    rw [isTrue_ofBool, decide_eq_true_eq] at hb
    rw [List.append_nil] at ht
    exact ⟨es, ht, hf, hb⟩
  · intro h
    obtain ⟨es, ht, hf, hv⟩ := h
    refine ⟨_, ⟨es, ht, es, [], (List.append_nil es).symm, hf, rfl⟩, ?_⟩
    rw [isTrue_ofBool, decide_eq_true_eq]
    exact hv

theorem run_singleKey {key : XOnlyKey} {t : Stack} :
    c.run ((singleKey key true).map ofItem) s = some t ↔ ∃ e, s = e :: t ∧ c.Signed key e :=
  run_verify

/-- The lock time stays on the stack, so it has to be met and, as the last element, to be true. -/
theorem run_lockTime {n : ℕ} (hn : n < 2 ^ 16) {t : Stack} :
    c.run [.push (writeNumber n), .op .checkSequenceVerify] s = some t ↔
      c.matured n = true ∧ t = writeNumber n :: s := by
  have hr : readNumber 5 (writeNumber n) = some (n : ℤ) := readNumber_writeNumber (by omega)
  have hb : n.testBit 31 = false := Nat.testBit_lt_two_pow (by omega)
  by_cases hm : c.matured n = true
  · simp [run, step, hr, hb, hm, Eq.comm (a := t)]
  · simp [run, step, hr, hb, hm]

theorem accepts_timelockScript {key : XOnlyKey} {lockTime : UInt16} :
    c.accepts (timelockScript key lockTime) s = true ↔
      ∃ sig, s = [sig] ∧ c.Signed key sig ∧ lockTime ≠ 0 ∧ c.matured lockTime.toNat = true := by
  have hn : lockTime.toNat < 2 ^ 16 := lockTime.toNat_lt
  have hw : 2 * lockTime.toNat < 256 ^ 3 := by omega
  have hi : (timelockItems key lockTime).map ofItem =
      [.push key.bytes, .op .checkSigVerify] ++
        [.push (writeNumber lockTime.toNat), .op .checkSequenceVerify] := by
    simp [timelockItems, ofItem]
  rw [timelockScript, accepts_iff (read_ofItems _), hi]
  simp only [run_append, Option.bind_eq_some_iff, run_verify, run_lockTime hn]
  constructor
  · intro h
    obtain ⟨b, ⟨t, ⟨sig, rfl, hs⟩, hm, he⟩, hb⟩ := h
    cases he
    refine ⟨sig, rfl, hs, ?_, hm⟩
    rintro rfl
    exact (isTrue_writeNumber hw).mp hb rfl
  · intro h
    obtain ⟨sig, rfl, hs, hz, hm⟩ := h
    refine ⟨_, ⟨[], ⟨sig, rfl, hs⟩, hm, rfl⟩, (isTrue_writeNumber hw).mpr ?_⟩
    intro h
    exact hz (UInt16.toNat_inj.mp h)

end Setting

open Setting in
/-- For whatever terms a stake was built, each of its leaves accepts these stacks and no others. -/
theorem leaves_accept_iff {terms : Terms} {value : Amount} {o : LockedOutput}
    (built : LockedOutput.build .staking terms value = .ok o)
    (covenants : terms.covenants.length < 2 ^ 31)
    (providers : terms.finalityProviders.length < 2 ^ 31) (c : Setting) (stack : Stack) :
    (c.accepts o.leaves.unbonding stack = true ↔
      ∃ sig es, stack = sig :: es ∧ c.Signed terms.staker sig ∧
        c.Ballot terms.covenants terms.quorum.toNat es) ∧
    (c.accepts o.leaves.slashing stack = true ↔
      ∃ sig ps es, stack = sig :: (ps ++ es) ∧ c.Signed terms.staker sig ∧
        c.Ballot terms.finalityProviders 1 ps ∧ c.Ballot terms.covenants terms.quorum.toNat es) ∧
    (c.accepts o.leaves.timelock stack = true ↔
      ∃ sig, stack = [sig] ∧ c.Signed terms.staker sig ∧ terms.lockTime ≠ 0 ∧
        c.matured terms.lockTime.toNat = true) := by
  obtain ⟨hc, hf, hl⟩ := Terms.leaves_eq_ok.mp (LockedOutput.build_leaves built)
  rw [hl]
  refine ⟨?_, ?_, accepts_timelockScript⟩
  · rw [Terms.scripts, accepts_committee hc covenants]
    simp only [run_singleKey]
    constructor
    · intro h
      obtain ⟨es, ⟨sig, rfl, hs⟩, hb⟩ := h
      exact ⟨sig, es, rfl, hs, hb⟩
    · intro h
      obtain ⟨sig, es, rfl, hs, hb⟩ := h
      exact ⟨es, ⟨sig, rfl, hs⟩, hb⟩
  · rw [Terms.scripts, accepts_committee hc covenants]
    simp only [List.map_append, run_append, Option.bind_eq_some_iff, run_singleKey,
      run_committee_verify hf providers]
    constructor
    · intro h
      obtain ⟨es, ⟨t, ⟨sig, rfl, hs⟩, ps, rfl, hp⟩, hb⟩ := h
      exact ⟨sig, ps, es, rfl, hs, hp, hb⟩
    · intro h
      obtain ⟨sig, ps, es, rfl, hs, hp, hb⟩ := h
      exact ⟨es, ⟨ps ++ es, ⟨sig, rfl, hs⟩, ps, rfl, hp⟩, hb⟩

section Witness

/-- Every key signs with its own bytes, and a thousand blocks have passed. -/
def ownBytes : Setting := ⟨fun key signature => signature == key, fun n => n ≤ 1000⟩

theorem ownBytes_signed (key : XOnlyKey) : ownBytes.Signed key key.bytes := by
  constructor
  · intro h
    have hl := key.bytes_length
    simp [h] at hl
  · exact beq_self_eq_true key.bytes

theorem ownBytes_committee :
    ownBytes.Ballot Sample.committee 2 [Sample.first.bytes, [], Sample.third.bytes] := by
  refine ⟨_, List.Perm.refl _, Sample.committee_ascending, ?_, by decide +kernel⟩
  exact .cons (Or.inr (ownBytes_signed _)) (.cons (Or.inl rfl) (.cons (Or.inr (ownBytes_signed _)) .nil))

theorem ownBytes_provider : ownBytes.Ballot [Sample.provider] 1 [Sample.provider.bytes] := by
  refine ⟨_, List.Perm.refl _, List.pairwise_singleton _ _, ?_, by decide +kernel⟩
  exact .cons (Or.inr (ownBytes_signed _)) .nil

/-- Two of three members let the sample stake out early or have it punished, and its staker leaves
alone in time. -/
theorem sample_leaves_accept :
    ownBytes.accepts (Sample.staking 100000).leaves.unbonding
      [Sample.staker.bytes, Sample.first.bytes, [], Sample.third.bytes] = true ∧
    ownBytes.accepts (Sample.staking 100000).leaves.slashing
      [Sample.staker.bytes, Sample.provider.bytes, Sample.first.bytes, [], Sample.third.bytes] = true ∧
    ownBytes.accepts (Sample.staking 100000).leaves.timelock [Sample.staker.bytes] = true := by
  have h := leaves_accept_iff (Sample.staking_built 100000) (by decide) (by decide) ownBytes
  refine ⟨(h _).1.mpr ?_, (h _).2.1.mpr ?_, (h _).2.2.mpr ?_⟩
  · exact ⟨_, _, rfl, ownBytes_signed _, ownBytes_committee⟩
  · exact ⟨_, [_], _, rfl, ownBytes_signed _, ownBytes_provider, ownBytes_committee⟩
  · exact ⟨_, rfl, ownBytes_signed _, by decide, by decide⟩

end Witness

end Countersign.Tapscript
