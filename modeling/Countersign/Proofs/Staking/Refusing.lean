import Countersign.Proofs.FirstFailure
import Countersign.Proofs.Staking.Building

/-!
# Which terms are refused

An output can be built when there are finality providers, a committee that can meet its quorum, and no key
in either group twice. What is wrong with other terms is looked for in a fixed order, the committee before
the finality providers, and a repeated key is named as the smallest of them, wherever its copies stand.
-/

set_option autoImplicit false

namespace Countersign

open Outcome

namespace Leaves

variable {keys keys' : List XOnlyKey} {key a : XOnlyKey}

/-- The key is listed twice, and no smaller one in byte order is. -/
structure LeastRepeated (keys : List XOnlyKey) (key : XOnlyKey) : Prop where
  twice : 2 ≤ keys.count key
  least : ∀ other, 2 ≤ keys.count other → key.bytes ≤ other.bytes

theorem leastRepeated_congr (h : ∀ k, 2 ≤ keys.count k ↔ 2 ≤ keys'.count k) :
    LeastRepeated keys key ↔ LeastRepeated keys' key := by
  constructor
  · intro hk
    exact ⟨(h key).mp hk.twice, fun other ho => hk.least other ((h other).mpr ho)⟩
  · intro hk
    exact ⟨(h key).mpr hk.twice, fun other ho => hk.least other ((h other).mp ho)⟩

theorem leastRepeated_perm (h : keys.Perm keys') :
    LeastRepeated keys key ↔ LeastRepeated keys' key :=
  leastRepeated_congr fun k => by rw [h.count_eq]

theorem leastRepeated_cons_of_notMem (h : a ∉ keys) :
    LeastRepeated (a :: keys) key ↔ LeastRepeated keys key := by
  apply leastRepeated_congr
  intro k
  by_cases hk : k = a
  · rw [hk, List.count_cons_self, List.count_eq_zero_of_not_mem h]
    omega
  · rw [List.count_cons_of_ne (Ne.symm hk)]

theorem leastRepeated_cons_self (h : ∀ k ∈ keys, a.bytes ≤ k.bytes) :
    LeastRepeated (a :: a :: keys) key ↔ key = a := by
  have twice : 2 ≤ (a :: a :: keys).count a := by
    rw [List.count_cons_self, List.count_cons_self]
    omega
  have below : ∀ k ∈ a :: a :: keys, a.bytes ≤ k.bytes := by
    simpa [List.le_refl] using h
  constructor
  · intro hk
    have member : key ∈ a :: a :: keys := List.count_pos_iff.mp (by have := hk.twice; omega)
    exact XOnlyKey.bytes_injective (List.le_antisymm (hk.least a twice) (below key member))
  · rintro rfl
    exact ⟨twice, fun other ho => below other (List.count_pos_iff.mp (by omega))⟩

theorem not_leastRepeated_singleton : ¬ LeastRepeated [a] key := by
  intro h
  have := h.twice
  have := List.count_le_length (a := key) (l := [a])
  simp only [List.length_singleton] at this
  omega

theorem repeated?_eq_some_iff (h : keys.Pairwise fun a b => a.bytes ≤ b.bytes) :
    repeated? keys = some key ↔ LeastRepeated keys key := by
  induction keys with
  | nil => exact iff_of_false nofun fun hk => by simpa using hk.twice
  | cons a rest ih =>
    obtain ⟨ha, hrest⟩ := List.pairwise_cons.mp h
    cases rest with
    | nil => exact iff_of_false nofun not_leastRepeated_singleton
    | cons b r =>
      by_cases hab : a = b
      · subst hab
        rw [repeated?, if_pos rfl, leastRepeated_cons_self (List.pairwise_cons.mp hrest).1,
          Option.some.injEq, eq_comm]
      · have apart : a ∉ b :: r := by
          intro hm
          have hba : b.bytes ≤ a.bytes := by
            rcases List.mem_cons.mp hm with hm | hm
            · exact absurd hm hab
            · exact (List.pairwise_cons.mp hrest).1 a hm
          exact hab (XOnlyKey.bytes_injective (List.le_antisymm (ha b List.mem_cons_self) hba))
        rw [repeated?, if_neg hab, ih hrest, leastRepeated_cons_of_notMem apart]

theorem repeated?_sortKeys_eq_some :
    repeated? (sortKeys keys) = some key ↔ LeastRepeated keys key := by
  rw [repeated?_eq_some_iff (sortKeys_pairwise keys), leastRepeated_perm (sortKeys_perm keys)]

/-- What a committee is asked for, in this order. A sole key needs no look at its copies. -/
theorem multisig_eq (group : KeyGroup) (keys : List XOnlyKey) (quorum : UInt32) (verify : Bool) :
    multisig group keys quorum verify = do
      if keys = [] then throw (.noKeys group)
      if ¬ (1 ≤ quorum.toNat ∧ quorum.toNat ≤ keys.length) then
        throw (.invalidQuorum quorum keys.length)
      match repeated? (sortKeys keys) with
      | some key => throw (.duplicateKey group key)
      | none => return committeeItems keys quorum verify := by
  have met : ¬ (1 ≤ quorum.toNat ∧ quorum.toNat ≤ keys.length) ↔
      quorum = 0 ∨ quorum.toNat > keys.length := by
    rw [← UInt32.toNat_inj, UInt32.toNat_zero]
    omega
  simp only [multisig, met]
  split_ifs with hq he hn hn hn
  · rfl
  · exact absurd (List.isEmpty_iff.mp he) hn
  · exact absurd (List.isEmpty_iff.mpr hn) he
  · rfl
  · -- nobody cannot meet a quorum
    obtain ⟨pos, le⟩ := not_not.mp (mt met.mp hq)
    rw [hn, List.length_nil] at le
    omega
  · rcases keys with _ | ⟨b, _ | ⟨c, r⟩⟩
    · exact absurd rfl hn
    · have hs : sortKeys [b] = [b] := by simp [sortKeys]
      rw [hs]
      rfl
    · cases hr : repeated? (sortKeys (b :: c :: r)) with
      | none => rfl
      | some k => rfl

end Leaves

namespace Terms

open Leaves

/-- What terms have to be like for an output to be made of them. -/
structure Usable (t : Terms) : Prop where
  providers : t.finalityProviders ≠ []
  committee : t.covenants ≠ []
  quorum : 1 ≤ t.quorum.toNat ∧ t.quorum.toNat ≤ t.covenants.length
  distinct : t.covenants.Nodup
  distinctProviders : t.finalityProviders.Nodup

theorem usable_iff {t : Terms} :
    t.Usable ↔ Quorate t.covenants t.quorum ∧ Quorate t.finalityProviders 1 := by
  have positive : t.quorum ≠ 0 ↔ 1 ≤ t.quorum.toNat := by
    rw [ne_eq, ← UInt32.toNat_inj, UInt32.toNat_zero]
    omega
  constructor
  · intro h
    exact ⟨⟨positive.mpr h.quorum.1, h.quorum.2, h.distinct⟩, by decide,
      List.length_pos_iff.mpr h.providers, h.distinctProviders⟩
  · rintro ⟨hc, hf⟩
    have met := positive.mp hc.pos
    exact ⟨List.length_pos_iff.mp hf.le, List.length_pos_iff.mp (by have := hc.le; omega),
      ⟨met, hc.le⟩, hc.nodup, hf.nodup⟩

inductive Flaw where
  | noProviders
  | noCommittee
  | unmetQuorum
  | repeatedMember
  | repeatedProvider
  | untweakable
  deriving DecidableEq, Repr

def Flaw.order : List Flaw :=
  [.noProviders, .noCommittee, .unmetQuorum, .repeatedMember, .repeatedProvider, .untweakable]

/-- The terms have the flaw, and this is how it is reported of an output of this kind. -/
def Flawed (kind : LockKind) (t : Terms) : Flaw → StakingError → Prop
  | .noProviders, e => t.finalityProviders = [] ∧ .noKeys .finalityProviders = e
  | .noCommittee, e => t.covenants = [] ∧ .noKeys .covenantCommittee = e
  | .unmetQuorum, e => ¬ (1 ≤ t.quorum.toNat ∧ t.quorum.toNat ≤ t.covenants.length) ∧
      .invalidQuorum t.quorum t.covenants.length = e
  | .repeatedMember, e => ∃ key, LeastRepeated t.covenants key ∧
      .duplicateKey .covenantCommittee key = e
  | .repeatedProvider, e => ∃ key, LeastRepeated t.finalityProviders key ∧
      .duplicateKey .finalityProviders key = e
  | .untweakable, e => Taproot.outputKey? unspendableKey (kind.tree t.scripts).root = none ∧
      .untweakable = e

variable {kind : LockKind} {t : Terms}

theorem search_eq_error {α : Type} {group : KeyGroup} {keys : List XOnlyKey} {items : α}
    {e : StakingError} :
    (match repeated? (sortKeys keys) with
      | some key => throw (.duplicateKey group key)
      | none => return items : Except StakingError α) = .error e ↔
      ∃ key, LeastRepeated keys key ∧ .duplicateKey group key = e := by
  simp only [← repeated?_sortKeys_eq_some]
  cases repeated? (sortKeys keys) with
  | none => simp [pure_ne_error]
  | some key => simp [throw, throwThe, MonadExceptOf.throw]

theorem committee_follows :
    Follows (Flawed kind t) [.noCommittee, .unmetQuorum, .repeatedMember]
      (multisig .covenantCommittee t.covenants t.quorum false) := by
  rw [multisig_eq]
  refine .guard (fun e => Iff.rfl) fun _ => .guard (fun e => Iff.rfl) fun _ => .single ?_
  intro e
  exact search_eq_error

/-- One finality provider is enough, so among some of them only copies can be wrong. -/
theorem providers_follow (some : t.finalityProviders ≠ []) :
    Follows (Flawed kind t) [.repeatedProvider]
      (multisig .finalityProviders t.finalityProviders 1 true) := by
  have met : 1 ≤ (1 : UInt32).toNat ∧ (1 : UInt32).toNat ≤ t.finalityProviders.length :=
    ⟨by decide, List.length_pos_iff.mpr some⟩
  rw [multisig_eq, if_neg some, if_neg (not_not.mpr met)]
  exact .single fun e => search_eq_error

theorem leaves_follow :
    Follows (Flawed kind t)
      [.noProviders, .noCommittee, .unmetQuorum, .repeatedMember, .repeatedProvider] t.leaves := by
  refine .guard (fun e => ?_) fun some => ?_
  · rw [List.isEmpty_iff]
    exact Iff.rfl
  · rw [List.isEmpty_iff] at some
    exact committee_follows.append fun _ _ => (providers_follow some).append fun _ _ => .ok _

end Terms

namespace LockedOutput

open Terms

theorem build_follows (kind : LockKind) (t : Terms) (value : Amount) :
    Follows (Flawed kind t) Flaw.order (build kind t value) := by
  refine leaves_follow.append fun leaves hl => .single fun e => ?_
  obtain ⟨-, -, rfl⟩ := leaves_eq_ok.mp hl
  simp only [Flawed]
  cases Taproot.outputKey? unspendableKey (kind.tree t.scripts).root with
  | none => simp [throw, throwThe, MonadExceptOf.throw]
  | some key => simp [pure_ne_error]

/-- Terms give an output if they are usable and the tweak of their root is in range, and else the first
flaw that they have is reported. -/
theorem build_or_first_flaw (kind : LockKind) (t : Terms) (value : Amount) :
    ((∃ o, build kind t value = .ok o) ↔
      t.Usable ∧ (Taproot.outputKey? unspendableKey (kind.tree t.scripts).root).isSome = true) ∧
    ∀ e, build kind t value = .error e ↔
      ∃ before flaw, FirstFailure (Flawed kind t) Flaw.order before flaw e := by
  refine ⟨?_, build_follows kind t value⟩
  rw [usable_iff, Option.isSome_iff_exists]
  constructor
  · rintro ⟨o, built⟩
    obtain ⟨hc, hf, key, hkey, -⟩ := build_eq_ok_iff.mp built
    exact ⟨⟨hc, hf⟩, key, hkey⟩
  · rintro ⟨⟨hc, hf⟩, key, hkey⟩
    exact ⟨_, build_eq_ok_iff.mpr ⟨hc, hf, key, hkey, rfl⟩⟩

end LockedOutput

end Countersign
