import Countersign.Proofs.Staking.Binding

/-!
# The order of keys

Members of a committee list each other's keys in orders of their own. Whatever is made of the keys is made
of the sorted ones, so two lists of the same keys give the same leaves, the same output and the same stake,
or fail for the same reason.
-/

set_option autoImplicit false

namespace Countersign

theorem Leaves.multisig_perm {group : KeyGroup} {keys keys' : List XOnlyKey} {threshold : UInt32}
    {verify : Bool} (h : keys.Perm keys') :
    multisig group keys threshold verify = multisig group keys' threshold verify := by
  unfold multisig
  rw [h.length_eq, h.isEmpty_eq]
  split
  · rfl
  · rcases keys with _ | ⟨a, _ | ⟨b, r⟩⟩
    · rw [h.nil_eq]
    · rw [h.singleton_eq]
    · -- neither list has a key only, so both are sorted
      rcases keys' with _ | ⟨a', _ | ⟨b', r'⟩⟩
      · cases h.length_eq
      · cases h.length_eq
      · rw [sortKeys_eq_of_perm h]

theorem Terms.Agree.leaves_eq {t u : Terms} (h : t.Agree u) : t.leaves = u.leaves := by
  unfold leaves
  rw [h.finalityProviders.isEmpty_eq, Leaves.multisig_perm h.covenants,
    Leaves.multisig_perm h.finalityProviders, h.staker, h.lockTime, h.quorum]

theorem LockedOutput.build_eq_of_agree {t u : Terms} (h : t.Agree u) (kind : LockKind) (value : Amount) :
    build kind t value = build kind u value := by
  unfold build
  rw [h.leaves_eq]

namespace Stake

variable {covenants covenants' : List XOnlyKey}

theorem announcedTerms_agree (h : covenants.Perm covenants') (a : Announcement) (quorum : UInt32) :
    (announcedTerms a covenants quorum).Agree (announcedTerms a covenants' quorum) :=
  ⟨rfl, rfl, rfl, h, .refl _⟩

theorem recognise_perm (h : covenants.Perm covenants') (t : Transaction) (tag : Bytes) (quorum : UInt32) :
    recognise t tag covenants quorum = recognise t tag covenants' quorum := by
  unfold recognise
  simp only [LockedOutput.build_eq_of_agree (announcedTerms_agree h _ quorum)]

end Stake

end Countersign
