import Countersign.Proofs.Staking.Committees
import Countersign.Proofs.Staking.Locking
import Countersign.Staking.Stake

/-!
# When outputs are built

An output is built when both committees of the terms can make their scripts and the tweak of the root
is in range. A stake with a committee of three, and what it unbonds to, stand for all that can be built.
-/

set_option autoImplicit false

namespace Countersign

open Leaves

namespace LockedOutput

theorem build_eq_ok_iff {kind : LockKind} {terms : Terms} {value : Amount} {o : LockedOutput} :
    build kind terms value = .ok o ↔
      Quorate terms.covenants terms.quorum ∧ Quorate terms.finalityProviders 1 ∧
        ∃ key, Taproot.outputKey? unspendableKey (kind.tree terms.scripts).root = some key ∧
          o = ⟨kind, terms.scripts, key, value⟩ := by
  simp only [build_eq_ok, Terms.leaves_eq_ok]
  constructor
  · intro h
    obtain ⟨leaves, key, ⟨hc, hf, rfl⟩, hk, rfl⟩ := h
    exact ⟨hc, hf, key, hk, rfl⟩
  · intro h
    obtain ⟨hc, hf, key, hk, rfl⟩ := h
    exact ⟨_, key, ⟨hc, hf, rfl⟩, hk, rfl⟩

theorem build_ne_error {kind : LockKind} {terms : Terms} {value : Amount} {key : PublicKey}
    {e : StakingError} (covenants : Quorate terms.covenants terms.quorum)
    (providers : Quorate terms.finalityProviders 1)
    (tweaked : Taproot.outputKey? unspendableKey (kind.tree terms.scripts).root = some key) :
    build kind terms value ≠ .error e := by
  rw [build_eq_ok_iff.mpr ⟨covenants, providers, key, tweaked, rfl⟩]
  exact nofun

end LockedOutput

namespace Sample

def first : XOnlyKey :=
  ⟨Bytes.ofNatBE 32 0x79be667ef9dcbbac55a06295ce870b07029bfcdb2dce28d959f2815b16f81798,
    by decide +kernel⟩

def second : XOnlyKey :=
  ⟨Bytes.ofNatBE 32 0xc6047f9441ed7d6d3045406e95c07cd85c778e4b8cef3ca7abac09b95c709ee5,
    by decide +kernel⟩

def third : XOnlyKey :=
  ⟨Bytes.ofNatBE 32 0xf9308a019258c31049344f85f89d5229b531c845836f99b08601f113bce036f9,
    by decide +kernel⟩

def staker : XOnlyKey :=
  ⟨Bytes.ofNatBE 32 0xe493dbf1c10d80f3581e4904930b1404cc6c13900ee0758474fa94abe8c4cd13,
    by decide +kernel⟩

def provider : XOnlyKey :=
  ⟨Bytes.ofNatBE 32 0x2f8bde4d1a07209355b4a7250a5c5128e88b84bddc619ab7cba8d569b240efe4,
    by decide +kernel⟩

def committee : List XOnlyKey := [first, second, third]

theorem committee_ascending : Ascending committee := by
  unfold Ascending
  decide +kernel

def terms (lockTime : UInt16) : Terms := Stake.terms staker provider committee 2 lockTime

theorem committee_quorate : Quorate committee 2 :=
  ⟨by decide, by decide, committee_ascending.nodup⟩

theorem sortKeys_committee : sortKeys committee = committee :=
  eq_of_ascending ((ascending_sortKeys_iff committee).mpr committee_quorate.nodup)
    committee_ascending (sortKeys_perm committee)

def leaves (lockTime : UInt16) : Leaves where
  timelock := timelockScript staker lockTime
  unbonding := Script.ofItems (singleKey staker true ++ tally committee 2 false)
  slashing := Script.ofItems (singleKey staker true ++ singleKey provider true ++
    tally committee 2 false)

theorem terms_scripts (lockTime : UInt16) : (terms lockTime).scripts = leaves lockTime := by
  have hc : committeeItems committee 2 false = tally (sortKeys committee) 2 false := rfl
  have hp : committeeItems [provider] 1 true = singleKey provider true := rfl
  rw [sortKeys_committee] at hc
  simp only [Terms.scripts, terms, Stake.terms, hc, hp, leaves]

theorem built {kind : LockKind} {lockTime : UInt16} {key : PublicKey} {value : Amount}
    (h : Taproot.outputKey? unspendableKey (kind.tree (leaves lockTime)).root = some key) :
    LockedOutput.build kind (terms lockTime) value = .ok ⟨kind, leaves lockTime, key, value⟩ := by
  apply LockedOutput.build_eq_ok_iff.mpr
  rw [terms_scripts]
  exact ⟨committee_quorate, quorate_singleton provider, key, h, rfl⟩

def stakingKey : PublicKey :=
  ⟨⟨Bytes.ofNatBE 32 0x23f6a071cd3569d6d96db2f2c81e6292f0301c24e275b163e0229ab7e061b3ab,
    by decide +kernel⟩, true⟩

def staking (value : Amount) : LockedOutput := ⟨.staking, leaves 1000, stakingKey, value⟩

theorem staking_built (value : Amount) :
    LockedOutput.build .staking (terms 1000) value = .ok (staking value) := by
  apply built
  decide +kernel

def unbondingKey : PublicKey :=
  ⟨⟨Bytes.ofNatBE 32 0xd024b009466b765f553ed3c0e3355b3f6fdd01ed524829b7ddcd610039231067,
    by decide +kernel⟩, true⟩

def unbonding (value : Amount) : LockedOutput := ⟨.unbonding, leaves 100, unbondingKey, value⟩

theorem unbonding_built (value : Amount) :
    LockedOutput.build .unbonding (terms 100) value = .ok (unbonding value) := by
  apply built
  decide +kernel

end Sample

end Countersign
