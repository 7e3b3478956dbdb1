import Mathlib.Data.List.Pairwise
import Countersign.Bitcoin.Decoder
import Countersign.Hash.Sha256
import Countersign.Proofs.Bytes

/-!
# What is hashed

Nothing is assumed of the hash function as such. A statement that needs different strings to have
different hashes names the strings that are hashed, and asks it of those alone. A string that is hashed
under a tag determines the message, and a string behind its length determines the string.
-/

set_option autoImplicit false

namespace Countersign

namespace Sha256

/-- No two of these strings have the same hash. -/
def CollisionFree (inputs : List Bytes) : Prop :=
  ∀ a ∈ inputs, ∀ b ∈ inputs, hash a = hash b → a = b

theorem CollisionFree.subset {inputs some : List Bytes} (h : CollisionFree inputs)
    (hs : some ⊆ inputs) : CollisionFree some :=
  fun a ha b hb => h a (hs ha) b (hs hb)

theorem pairwise_iff_collisionFree {inputs : List Bytes} :
    (inputs.Pairwise fun a b => a = b ∨ hash a ≠ hash b) ↔ CollisionFree inputs := by
  constructor
  · intro h a ha b hb hab
    have : Std.Symm fun a b : Bytes => a = b ∨ hash a ≠ hash b :=
      ⟨fun _ _ hxy => hxy.imp Eq.symm Ne.symm⟩
    have hself : ∀ x ∈ inputs, x = x ∨ hash x ≠ hash x := fun _ _ => Or.inl rfl
    exact (List.Pairwise.forall_of_forall hself h ha hb).resolve_right (not_not.mpr hab)
  · intro h
    apply List.pairwise_of_forall_mem_list
    intro a ha b hb
    by_cases hab : hash a = hash b
    · exact Or.inl (h a ha b hb hab)
    · exact Or.inr hab

instance (inputs : List Bytes) : Decidable (CollisionFree inputs) :=
  decidable_of_iff _ pairwise_iff_collisionFree

def taggedInput (tag message : Bytes) : Bytes := hash tag ++ hash tag ++ message

theorem tagged_eq (tag message : Bytes) : tagged tag message = hash (taggedInput tag message) := rfl

theorem taggedInput_inj {tag tag' message message' : Bytes} :
    taggedInput tag message = taggedInput tag' message' ↔
      hash tag = hash tag' ∧ message = message' := by
  constructor
  · intro h
    obtain ⟨htags, hmessage⟩ := List.append_inj h (by simp [hash_length])
    exact ⟨(List.append_inj htags (by simp [hash_length])).1, hmessage⟩
  · intro h
    obtain ⟨htag, rfl⟩ := h
    rw [taggedInput, taggedInput, htag]

end Sha256

namespace CompactSize

def width (first : UInt8) : ℕ :=
  if first = 0xff then 9 else if first = 0xfe then 5 else if first = 0xfd then 3 else 1

theorem encode_width (n : ℕ) : ∃ first rest, encode n = first :: rest ∧
    (encode n).length = width first := by
  unfold encode
  split_ifs with h
  · have hne : ∀ marker : UInt8, 0xfd ≤ marker.toNat → UInt8.ofNat n ≠ marker := by
      rintro marker hm rfl
      rw [UInt8.toNat_ofNat'] at hm
      omega
    refine ⟨_, _, rfl, ?_⟩
    rw [width, if_neg (hne 0xff (by decide)), if_neg (hne 0xfe (by decide)),
      if_neg (hne 0xfd (by decide))]
    rfl
  · exact ⟨_, _, rfl, by simp [width, Bytes.ofNatLE_length]⟩
  · exact ⟨_, _, rfl, by simp [width, Bytes.ofNatLE_length]⟩
  · exact ⟨_, _, rfl, by simp [width, Bytes.ofNatLE_length]⟩

theorem sized_injective : Function.Injective sized := by
  intro a b h
  obtain ⟨first, rest, ha, hla⟩ := encode_width a.length
  obtain ⟨first', rest', hb, hlb⟩ := encode_width b.length
  have hfirst : first = first' := by
    have hh := congrArg List.head? h
    simpa [sized, ha, hb] using hh
  have hlength : (encode a.length).length = (encode b.length).length := by
    rw [hla, hlb, hfirst]
  exact (List.append_inj h hlength).2

end CompactSize

end Countersign
