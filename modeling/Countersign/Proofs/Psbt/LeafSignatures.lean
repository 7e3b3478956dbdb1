import Mathlib.Data.List.Nodup
import Countersign.Proofs.Bitcoin.Decoding
import Countersign.Psbt.Packet

/-!
# One signature for each key and leaf

The maps of a packet keep their entries in the order of their ranks, and none is put in beside another of
its rank. So in every input of a packet that was read there is at most one signature by a key for a leaf,
however many signatures there are, and to look it up is to ask whether it is there.
-/

set_option autoImplicit false

namespace Countersign

section Ranked

variable {α : Type} {rank : α → Bytes}

def Ranked (rank : α → Bytes) (l : List α) : Prop := l.Pairwise fun a b => rank a < rank b

theorem ranked_nil : Ranked rank [] := List.Pairwise.nil

theorem mem_insertRanked {a b : α} {l m : List α} (h : insertRanked rank a l = some m) :
    b ∈ m ↔ b = a ∨ b ∈ l := by
  induction l generalizing m with
  | nil =>
    cases h
    simp
  | cons c l ih =>
    unfold insertRanked at h
    split_ifs at h with same before
    · cases h
      simp
    · obtain ⟨rest, put, rfl⟩ := Option.map_eq_some_iff.mp h
      rw [List.mem_cons, ih put, List.mem_cons, or_left_comm]

theorem Ranked.insertRanked {a : α} {l m : List α} (ranked : Ranked rank l)
    (h : Countersign.insertRanked rank a l = some m) : Ranked rank m := by
  induction l generalizing m with
  | nil =>
    cases h
    exact List.pairwise_singleton _ a
  | cons c l ih =>
    obtain ⟨first, ordered⟩ := List.pairwise_cons.mp ranked
    unfold Countersign.insertRanked at h
    split_ifs at h with same before
    · cases h
      have lt : rank a < rank c := Std.lt_of_le_of_ne ((Bytes.le_iff _ _).mp before) same
      refine List.pairwise_cons.mpr ⟨?_, ranked⟩
      intro b hb
      cases List.mem_cons.mp hb with
      | inl here => exact here ▸ lt
      | inr later => exact List.lt_trans lt (first b later)
    · obtain ⟨rest, put, rfl⟩ := Option.map_eq_some_iff.mp h
      have lt : rank c < rank a := List.not_le.mp fun le => before ((Bytes.le_iff _ _).mpr le)
      refine List.pairwise_cons.mpr ⟨?_, ih ordered put⟩
      intro b hb
      cases (mem_insertRanked put).mp hb with
      | inl here => exact here ▸ lt
      | inr later => exact first b later

theorem Ranked.eq_of_rank_eq {a b : α} {l : List α} (ranked : Ranked rank l) (ha : a ∈ l) (hb : b ∈ l)
    (same : rank a = rank b) : a = b := by
  have nodup : (l.map rank).Nodup := by
    apply List.pairwise_map.mpr
    apply ranked.imp
    intro c d before hcd
    rw [hcd] at before
    exact List.lt_irrefl _ before
  exact List.inj_on_of_nodup_map nodup ha hb same

end Ranked

theorem LeafSignature.rank_eq_iff {s u : LeafSignature} :
    s.rank = u.rank ↔ s.key = u.key ∧ s.leafHash = u.leafHash := by
  constructor
  · intro h
    obtain ⟨key, leafHash⟩ := List.append_inj h (by rw [s.key.bytes_length, u.key.bytes_length])
    exact ⟨XOnlyKey.bytes_injective key, Hash256.bytes_injective leafHash⟩
  · intro ⟨key, leafHash⟩
    rw [rank, rank, key, leafHash]

namespace PsbtInput

/-- No two of the input's signatures are by one key for one leaf. -/
def Keyed (i : PsbtInput) : Prop := Ranked LeafSignature.rank i.leafSignatures

variable {i j : PsbtInput}

theorem keyed_empty : empty.Keyed := ranked_nil

theorem read_put {α β : Type} {read : Option α} {put : α → Option β} {field : β → PsbtInput}
    (h : (do return field (← put (← read))) = some j) :
    ∃ a b, read = some a ∧ put a = some b ∧ field b = j := by
  obtain ⟨a, ha, h⟩ := Option.bind_eq_some_iff.mp h
  obtain ⟨b, hb, h⟩ := Option.bind_eq_some_iff.mp h
  exact ⟨a, b, ha, hb, Option.some.inj h⟩

theorem read_once {α : Type} {taken : Prop} [Decidable taken] {read : Option α} {field : α → PsbtInput}
    (h : (do
      if taken then failure
      return field (← read)) = some j) : ∃ a, read = some a ∧ field a = j := by
  split_ifs at h
  · cases h
  · obtain ⟨a, ha, h⟩ := Option.bind_eq_some_iff.mp h
    exact ⟨a, ha, Option.some.inj h⟩

theorem insert_leafSignatures {e : Entry} (h : i.insert e = some j) :
    j.leafSignatures = i.leafSignatures ∨
      ∃ s, insertRanked LeafSignature.rank s i.leafSignatures = some j.leafSignatures := by
  unfold insert at h
  split at h
  case h_1 =>
    obtain ⟨o, -, rfl⟩ := read_once h
    exact .inl rfl
  case h_2 =>
    obtain ⟨t, -, rfl⟩ := read_once h
    exact .inl rfl
  -- the type 0x14, the only one that brings a signature for a leaf
  case h_4 =>
    obtain ⟨s, l, -, put, rfl⟩ := read_put h
    exact .inr ⟨s, put⟩
  -- each of the others goes to a map of its own
  all_goals
    obtain ⟨_, l, -, -, rfl⟩ := read_put h
    exact .inl rfl

theorem Keyed.insert {e : Entry} (keyed : i.Keyed) (h : i.insert e = some j) : j.Keyed := by
  unfold Keyed
  cases insert_leafSignatures h with
  | inl unchanged =>
    rw [unchanged]
    exact keyed
  | inr put =>
    obtain ⟨s, put⟩ := put
    exact keyed.insertRanked put

theorem Keyed.foldlM {entries : List Entry} (keyed : i.Keyed) (h : entries.foldlM PsbtInput.insert i = some j) :
    j.Keyed := by
  induction entries generalizing i with
  | nil =>
    cases h
    exact keyed
  | cons e entries ih =>
    rw [List.foldlM_cons] at h
    obtain ⟨k, put, rest⟩ := Option.bind_eq_some_iff.mp h
    exact ih (keyed.insert put) rest

/-- To look a signature up by its key and leaf is to ask whether it is there. -/
theorem Keyed.find?_eq_some {key : XOnlyKey} {leafHash : Hash256} {s : LeafSignature} (keyed : i.Keyed) :
    i.leafSignatures.find? (fun s => s.key = key ∧ s.leafHash = leafHash) = some s ↔
      s ∈ i.leafSignatures ∧ s.key = key ∧ s.leafHash = leafHash := by
  have sound : ∀ u, i.leafSignatures.find? (fun s => s.key = key ∧ s.leafHash = leafHash) = some u →
      u ∈ i.leafSignatures ∧ u.key = key ∧ u.leafHash = leafHash := by
    intro u found
    have named := List.find?_some found
    exact ⟨List.mem_of_find?_eq_some found, of_decide_eq_true named⟩
  constructor
  · exact sound s
  · intro h
    cases found : i.leafSignatures.find? fun s => s.key = key ∧ s.leafHash = leafHash with
    | none => exact absurd (decide_eq_true h.2) (List.find?_eq_none.mp found s h.1)
    | some u =>
      have hu := sound u found
      have same : u.rank = s.rank :=
        LeafSignature.rank_eq_iff.mpr ⟨hu.2.1.trans h.2.1.symm, hu.2.2.trans h.2.2.symm⟩
      rw [keyed.eq_of_rank_eq hu.1 h.1 same]

end PsbtInput

theorem Decoder.mem_times {α : Type} {d : Decoder α} {n : ℕ} {b rest : Bytes} {l : List α}
    (h : times n d b = some (l, rest)) : ∀ a ∈ l, ∃ c r, d c = some (a, r) := by
  induction n generalizing b l rest with
  | zero =>
    obtain ⟨rfl, -⟩ := pure_eq_some.mp h
    exact nofun
  | succ n ih =>
    obtain ⟨a, r, first, h⟩ := bind_eq_some.mp h
    obtain ⟨l', r', later, h⟩ := bind_eq_some.mp h
    obtain ⟨rfl, -⟩ := pure_eq_some.mp h
    exact List.forall_mem_cons.mpr ⟨⟨b, r, first⟩, ih later⟩

namespace Psbt

def Keyed (p : Psbt) : Prop := ∀ i ∈ p.inputs, i.Keyed

theorem lift_eq_some {α : Type} {o : Option α} {a : α} {b rest : Bytes} :
    lift o b = some (a, rest) ↔ o = some a ∧ b = rest := by
  cases o with
  | none => simp [lift, failure, StateT.failure]
  | some c => simp [lift, Decoder.pure_eq_some]

theorem decoder_keyed {p : Psbt} {b rest : Bytes} (h : decoder b = some (p, rest)) : p.Keyed := by
  unfold decoder at h
  simp only [Decoder.bind_eq_some, Decoder.pure_eq_some, lift_eq_some] at h
  obtain ⟨start, _, -, _, _, -, first, _, -, t, _, -, globals, _, -, inputs, _, read, outputs, _, -, rfl,
    -⟩ := h
  intro i hi
  obtain ⟨c, r, h⟩ := Decoder.mem_times read i hi
  simp only [Decoder.bind_eq_some, lift_eq_some] at h
  obtain ⟨entries, _, -, h, -⟩ := h
  exact PsbtInput.keyed_empty.foldlM h

/-- Whatever text is read as a packet, its signatures are told apart by their keys and leaves. -/
theorem ofText?_keyed {s : String} {p : Psbt} (h : ofText? s = some p) : p.Keyed := by
  obtain ⟨b, -, decoded⟩ := Option.bind_eq_some_iff.mp h
  obtain ⟨⟨q, rest⟩, read, same⟩ := Option.map_eq_some_iff.mp decoded
  obtain rfl : q = p := same
  exact decoder_keyed read

end Psbt

end Countersign
