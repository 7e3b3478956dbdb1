import Mathlib.Algebra.BigOperators.Group.List.Basic
import Mathlib.Tactic.SplitIfs
import Countersign.Bitcoin.Decoder
import Countersign.Proofs.Bytes

/-!
# What decoders read

A decoder reads the form of every value that has one, in front of whatever follows, and nothing else. So
each value has one form, and a byte string that is read is the form of what is read from it. The law is
stated once for each decoder, as an equivalence, and the decoders built from others inherit it.
-/

set_option autoImplicit false

namespace Countersign.Decoder

variable {α β : Type}

/-- The decoder reads what is written of such values, and nothing else. -/
def Reads (d : Decoder α) (writable : α → Prop) (write : α → Bytes) : Prop :=
  ∀ b a rest, d b = some (a, rest) ↔ writable a ∧ b = write a ++ rest

section Steps

variable {b rest : Bytes}

theorem bind_eq_some {d : Decoder α} {f : α → Decoder β} {c : β} :
    (d >>= f) b = some (c, rest) ↔ ∃ a r, d b = some (a, r) ∧ f a r = some (c, rest) := by
  show (d b).bind (fun p => f p.1 p.2) = _ ↔ _
  simp only [Option.bind_eq_some_iff, Prod.exists]

theorem pure_eq_some {a c : α} : (pure a : Decoder α) b = some (c, rest) ↔ a = c ∧ b = rest := by
  show some (a, b) = some (c, rest) ↔ _
  rw [Option.some.injEq, Prod.mk.injEq]

theorem require_eq_some {c : Bool} {u : Unit} :
    require c b = some (u, rest) ↔ c = true ∧ b = rest := by
  cases c with
  | false => simp [require, failure, StateT.failure]
  | true => simp [require, pure_eq_some]

theorem byte_eq_some {x : UInt8} : byte b = some (x, rest) ↔ b = x :: rest := by
  cases b with
  | nil => simp [byte]
  | cons y r => simp [byte]

theorem take_eq_some {n : ℕ} {p : Bytes} :
    take n b = some (p, rest) ↔ p.length = n ∧ b = p ++ rest := by
  constructor
  · intro h
    obtain ⟨rfl, hp⟩ := Bytes.append_of_split? h
    exact ⟨hp, rfl⟩
  · rintro ⟨rfl, rfl⟩
    exact Bytes.split?_append p rest

theorem natLE_eq_some {width n : ℕ} :
    natLE width b = some (n, rest) ↔ n < Nat.pow 256 width ∧ b = Bytes.ofNatLE width n ++ rest := by
  simp only [natLE, bind_eq_some, take_eq_some, pure_eq_some]
  constructor
  · rintro ⟨p, r, ⟨rfl, rfl⟩, rfl, rfl⟩
    have hlt := Bytes.toNatBE_lt p.reverse
    rw [Bytes.toNatBE, List.reverse_reverse, List.length_reverse] at hlt
    exact ⟨hlt, by rw [Bytes.ofNatLE_toNatLE]⟩
  · rintro ⟨hn, rfl⟩
    exact ⟨_, rest, ⟨Bytes.ofNatLE_length width n, rfl⟩,
      by rw [Bytes.toNatLE_ofNatLE, Nat.mod_eq_of_lt hn], rfl⟩

theorem wide_eq_some {width least n : ℕ} :
    wide width least b = some (n, rest) ↔
      least ≤ n ∧ n < Nat.pow 256 width ∧ b = Bytes.ofNatLE width n ++ rest := by
  simp only [wide, bind_eq_some, natLE_eq_some, require_eq_some, pure_eq_some, decide_eq_true_eq]
  constructor
  · rintro ⟨m, _, ⟨hm, rfl⟩, _, _, ⟨hl, rfl⟩, rfl, rfl⟩
    exact ⟨hl, hm, rfl⟩
  · rintro ⟨hl, hn, rfl⟩
    exact ⟨n, rest, ⟨hn, rfl⟩, (), rest, ⟨hl, rfl⟩, rfl, rfl⟩

end Steps

theorem u32_eq_some {b rest : Bytes} {n : UInt32} :
    u32 b = some (n, rest) ↔ b = Bytes.ofNatLE 4 n.toNat ++ rest := by
  simp only [u32, bind_eq_some, natLE_eq_some, pure_eq_some]
  constructor
  · rintro ⟨m, _, ⟨hm, rfl⟩, rfl, rfl⟩
    rw [UInt32.toNat_ofNat_of_lt' hm]
  · rintro rfl
    exact ⟨n.toNat, rest, ⟨n.toNat_lt, rfl⟩, UInt32.ofNat_toNat, rfl⟩

theorem u64_eq_some {b rest : Bytes} {n : UInt64} :
    u64 b = some (n, rest) ↔ b = Bytes.ofNatLE 8 n.toNat ++ rest := by
  simp only [u64, bind_eq_some, natLE_eq_some, pure_eq_some]
  constructor
  · rintro ⟨m, _, ⟨hm, rfl⟩, rfl, rfl⟩
    rw [UInt64.toNat_ofNat_of_lt' hm]
  · rintro rfl
    exact ⟨n.toNat, rest, ⟨n.toNat_lt, rfl⟩, UInt64.ofNat_toNat, rfl⟩

def IsCount (n : ℕ) : Prop := n < Nat.pow 256 8

theorem isCount_zero : IsCount 0 := by
  unfold IsCount
  decide

theorem compactSize_cons (x : UInt8) (r : Bytes) :
    compactSize (x :: r) =
      if x = 0xff then wide 8 0x100000000 r
      else if x = 0xfe then wide 4 0x10000 r
      else if x = 0xfd then wide 2 0xfd r
      else some (x.toNat, r) := by
  unfold compactSize
  simp only [bind, StateT.bind, byte, Option.bind_some]
  split_ifs
  · rfl
  · rfl
  · rfl
  · rfl

/-- Only the shortest form of a count is read. -/
theorem compactSize_reads : Reads compactSize IsCount CompactSize.encode := by
  intro b n rest
  constructor
  · intro h
    cases b with
    | nil => simp [compactSize, bind, StateT.bind, byte] at h
    | cons x r =>
      rw [compactSize_cons] at h
      unfold IsCount CompactSize.encode
      split_ifs at h with hff hfe hfd
      · obtain ⟨hl, hn, rfl⟩ := wide_eq_some.mp h
        rw [if_neg (by omega), if_neg (by omega), if_neg (by omega), hff]
        exact ⟨hn, rfl⟩
      · obtain ⟨hl, hn, rfl⟩ := wide_eq_some.mp h
        have hn' : n < 0x100000000 := hn
        rw [if_neg (by omega), if_neg (by omega), if_pos hn', hfe]
        exact ⟨Nat.lt_trans hn (by decide), rfl⟩
      · obtain ⟨hl, hn, rfl⟩ := wide_eq_some.mp h
        have hn' : n < 0x10000 := hn
        rw [if_neg (by omega), if_pos hn', hfd]
        exact ⟨Nat.lt_trans hn (by decide), rfl⟩
      · simp only [Option.some.injEq, Prod.mk.injEq] at h
        obtain ⟨rfl, rfl⟩ := h
        have hx := x.toNat_lt
        have hne : ∀ y : UInt8, x ≠ y → x.toNat ≠ y.toNat := fun y h e => h (UInt8.toNat_inj.mp e)
        have h1 := hne 0xff hff
        have h2 := hne 0xfe hfe
        have h3 := hne 0xfd hfd
        simp only [UInt8.reduceToNat] at h1 h2 h3
        rw [if_pos (by omega), UInt8.ofNat_toNat]
        exact ⟨Nat.lt_trans hx (by decide), rfl⟩
  · rintro ⟨hn, rfl⟩
    unfold CompactSize.encode
    split_ifs with h1 h2 h3
    · have hx : (UInt8.ofNat n).toNat = n := by
        rw [UInt8.toNat_ofNat']
        omega
      have hne : ∀ y : UInt8, 0xfd ≤ y.toNat → UInt8.ofNat n ≠ y := by
        rintro y hy rfl
        omega
      rw [List.singleton_append, compactSize_cons, if_neg (hne _ (by decide)),
        if_neg (hne _ (by decide)), if_neg (hne _ (by decide)), hx]
    · rw [List.cons_append, compactSize_cons, if_neg (by decide), if_neg (by decide), if_pos rfl]
      exact wide_eq_some.mpr ⟨by omega, h2, rfl⟩
    · rw [List.cons_append, compactSize_cons, if_neg (by decide), if_pos rfl]
      exact wide_eq_some.mpr ⟨by omega, h3, rfl⟩
    · rw [List.cons_append, compactSize_cons, if_pos rfl]
      exact wide_eq_some.mpr ⟨by omega, hn, rfl⟩

theorem sized_reads : Reads sized (fun b => IsCount b.length) CompactSize.sized := by
  intro b s rest
  simp only [sized, bind_eq_some, compactSize_reads _ _ _, take_eq_some, CompactSize.sized,
    List.append_assoc]
  constructor
  · rintro ⟨n, r, ⟨hn, rfl⟩, rfl, rfl⟩
    exact ⟨hn, rfl⟩
  · rintro ⟨hn, rfl⟩
    exact ⟨s.length, s ++ rest, ⟨hn, rfl⟩, rfl, rfl⟩

section Lists

variable {d : Decoder α} {writable : α → Prop} {write : α → Bytes} (reads : Reads d writable write)

include reads

theorem times_reads (k : ℕ) :
    Reads (times k d) (fun l => l.length = k ∧ ∀ a ∈ l, writable a) (List.flatMap write) := by
  induction k with
  | zero =>
    intro b l rest
    simp only [times, pure_eq_some, List.length_eq_zero_iff]
    constructor
    · rintro ⟨rfl, rfl⟩
      exact ⟨⟨rfl, nofun⟩, rfl⟩
    · rintro ⟨⟨rfl, -⟩, rfl⟩
      exact ⟨rfl, rfl⟩
  | succ k ih =>
    intro b l rest
    simp only [times, bind_eq_some, reads _ _ _, ih _ _ _, pure_eq_some]
    constructor
    · rintro ⟨a, _, ⟨ha, rfl⟩, r, _, ⟨⟨hk, hr⟩, rfl⟩, rfl, rfl⟩
      exact ⟨⟨by simp [hk], by simpa [ha] using hr⟩, by simp⟩
    · rintro ⟨⟨hk, hl⟩, rfl⟩
      cases l with
      | nil => simp at hk
      | cons a r =>
        obtain ⟨ha, hr⟩ := List.forall_mem_cons.mp hl
        exact ⟨a, r.flatMap write ++ rest, ⟨ha, by simp⟩, r, rest,
          ⟨⟨by simpa using hk, hr⟩, rfl⟩, rfl, rfl⟩

theorem Reads.append_inj {a a' : α} {rest rest' : Bytes} (ha : writable a) (ha' : writable a')
    (h : write a ++ rest = write a' ++ rest') : a = a' ∧ rest = rest' := by
  have hd := (reads _ a rest).mpr ⟨ha, rfl⟩
  rw [h, (reads _ a' rest').mpr ⟨ha', rfl⟩, Option.some.injEq, Prod.mk.injEq] at hd
  exact ⟨hd.1.symm, hd.2.symm⟩

/-- A row of values needs no count in front of it, as long as each of them is written as something. -/
theorem Reads.flatMap_inj (one_le : ∀ a, 1 ≤ (write a).length) {l m : List α}
    (hl : ∀ a ∈ l, writable a) (hm : ∀ a ∈ m, writable a) (h : l.flatMap write = m.flatMap write) :
    l = m := by
  have ne_nil : ∀ a, write a ≠ [] := fun a => List.length_pos_iff.mp (one_le a)
  induction l generalizing m with
  | nil =>
    cases m with
    | nil => rfl
    | cons b m => simp [ne_nil] at h
  | cons a l ih =>
    cases m with
    | nil => simp [ne_nil] at h
    | cons b m =>
      obtain ⟨ha, hl⟩ := List.forall_mem_cons.mp hl
      obtain ⟨hb, hm⟩ := List.forall_mem_cons.mp hm
      rw [List.flatMap_cons, List.flatMap_cons] at h
      obtain ⟨hab, hrest⟩ := reads.append_inj ha hb h
      rw [hab, ih hl hm hrest]

theorem within_reads {limit : ℕ} :
    Reads (within limit d) (fun a => writable a ∧ (write a).length ≤ limit) write := by
  intro b a rest
  simp only [within, Option.bind_eq_bind, Option.bind_eq_some_iff, Prod.exists, reads _ _ _,
    Option.ite_none_right_eq_some, Option.some.injEq, Prod.mk.injEq]
  have taken (a : α) (r : Bytes) : (write a ++ r).length - r.length = (write a).length := by simp
  constructor
  · rintro ⟨a, r, ⟨ha, rfl⟩, short, rfl, rfl⟩
    rw [taken] at short
    exact ⟨⟨ha, short⟩, rfl⟩
  · rintro ⟨⟨ha, short⟩, rfl⟩
    refine ⟨a, rest, ⟨ha, rfl⟩, ?_, rfl, rfl⟩
    rw [taken]
    exact short

theorem counted_reads :
    Reads (counted d) (fun l => IsCount l.length ∧ ∀ a ∈ l, writable a) (CompactSize.counted write) := by
  intro b l rest
  simp only [counted, bind_eq_some, compactSize_reads _ _ _, times_reads reads _ _ _ _,
    CompactSize.counted, List.append_assoc]
  constructor
  · rintro ⟨n, _, ⟨hn, rfl⟩, ⟨rfl, hl⟩, rfl⟩
    exact ⟨⟨hn, hl⟩, rfl⟩
  · rintro ⟨⟨hn, hl⟩, rfl⟩
    exact ⟨l.length, _, ⟨hn, rfl⟩, ⟨rfl, hl⟩, rfl⟩

theorem exactly_eq_some {b : Bytes} {a : α} : exactly d b = some a ↔ writable a ∧ b = write a := by
  have h := reads b a []
  rw [List.append_nil] at h
  rw [← h, exactly]
  constructor
  · intro he
    split at he
    · rename_i hd
      cases he
      exact hd
    · cases he
  · intro hd
    rw [hd]

end Lists

end Countersign.Decoder

namespace Countersign.CompactSize

variable {α : Type}

theorem length_le_sized (b : Bytes) : b.length ≤ (sized b).length := by
  simp [sized]

theorem length_le_flatMap {f : α → Bytes} {l : List α} {a : α} (h : a ∈ l) :
    (f a).length ≤ (l.flatMap f).length := by
  rw [List.flatMap_def]
  exact (List.sublist_flatten_of_mem (List.mem_map_of_mem h)).length_le

theorem length_le_counted {f : α → Bytes} {l : List α} {a : α} (h : a ∈ l) :
    (f a).length ≤ (counted f l).length := by
  have hl := length_le_flatMap (f := f) h
  rw [counted, List.length_append]
  omega

theorem count_le_counted {f : α → Bytes} {l : List α} (h : ∀ a, 1 ≤ (f a).length) :
    l.length ≤ (counted f l).length := by
  have hs := List.length_le_sum_of_one_le (l.map fun a => (f a).length) (by simp [h])
  simp only [counted, List.length_append, List.length_flatMap]
  rw [List.length_map] at hs
  omega

theorem one_le_encode (n : ℕ) : 1 ≤ (encode n).length := by
  unfold encode
  split_ifs
  · simp
  · simp
  · simp
  · simp

theorem one_le_sized (b : Bytes) : 1 ≤ (sized b).length := by
  have h := one_le_encode b.length
  simp only [sized, List.length_append]
  omega

end Countersign.CompactSize
