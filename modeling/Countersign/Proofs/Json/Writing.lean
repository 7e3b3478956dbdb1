import Mathlib.Tactic.SplitIfs
import Countersign.Json.Reader
import Countersign.Json.Writer
import Countersign.Proofs.Json.Records

/-!
# What is written is read

A string is read back byte by byte, whatever it holds, because no escape that is written is half of a pair.
From strings the law goes on to objects of what can be read, so that nesting needs no further induction.
-/

set_option autoImplicit false

namespace Countersign.Json

open Reader

section Strings

variable {r : Bytes}

theorem pieces_close : pieces (0x22 :: r) = some ([], r) := by
  rw [pieces.eq_def]
  rfl

theorem pieces_plain {b : UInt8} (quote : b ≠ 0x22) (backslash : b ≠ 0x5c) (control : ¬ b < 0x20) :
    pieces (b :: r) = (pieces r).map fun p => (.byte b :: p.1, p.2) := by
  rw [pieces.eq_def]
  show (if _ then _ else _) = _
  rw [if_neg quote, if_neg backslash, if_neg control]
  cases pieces r with
  | none => rfl
  | some p => rfl

theorem pieces_short {e c : UInt8} (other : e ≠ 0x75) (stands : escaped? e = some c) :
    pieces (0x5c :: e :: r) = (pieces r).map fun p => (.byte c :: p.1, p.2) := by
  rw [pieces]
  · rw [if_neg (by decide), if_pos rfl, stands]
    cases pieces r with
    | none => rfl
    | some p => rfl
  · intro _ _ _ _ _ h
    exact absurd h other

theorem pieces_unit {h₁ h₂ h₃ h₄ : UInt8} {u : ℕ} (stands : unit? h₁ h₂ h₃ h₄ = some u) :
    pieces (0x5c :: 0x75 :: h₁ :: h₂ :: h₃ :: h₄ :: r) =
      (pieces r).map fun p => (.unit u :: p.1, p.2) := by
  rw [pieces, if_neg (by decide), if_pos rfl, stands]
  cases pieces r with
  | none => rfl
  | some p => rfl

def pieceOf (b : UInt8) : Piece :=
  if b < 0x20 ∧ b ∉ [0x08, 0x09, 0x0a, 0x0c, 0x0d] then .unit b.toNat else .byte b

theorem pieces_escapeByte (b : UInt8) :
    pieces (escapeByte b ++ r) = (pieces r).map fun p => (pieceOf b :: p.1, p.2) := by
  unfold escapeByte
  split_ifs with h₁ h₂ h₃ h₄ h₅ h₆ h₇ h₈
  · subst h₁
    exact pieces_short (by decide) (by decide)
  · subst h₂
    exact pieces_short (by decide) (by decide)
  · subst h₃
    exact pieces_short (by decide) (by decide)
  · subst h₄
    exact pieces_short (by decide) (by decide)
  · subst h₅
    exact pieces_short (by decide) (by decide)
  · subst h₆
    exact pieces_short (by decide) (by decide)
  · subst h₇
    exact pieces_short (by decide) (by decide)
  · have digits : ∀ n < 0x20, unit? 0x30 0x30 (hexDigit (n / 16)) (hexDigit (n % 16)) = some n := by
      decide +kernel
    rw [pieceOf, if_pos ⟨h₈, by simp [h₃, h₄, h₅, h₆, h₇]⟩]
    exact pieces_unit (digits _ (UInt8.lt_iff_toNat_lt.mp h₈))
  · rw [pieceOf, if_neg fun h => h₈ h.1]
    exact pieces_plain h₁ h₂ h₈

theorem pieces_quoted (s : Bytes) :
    pieces (s.flatMap escapeByte ++ 0x22 :: r) = some (s.map pieceOf, r) := by
  induction s with
  | nil => exact pieces_close
  | cons b s ih =>
    rw [List.flatMap_cons, List.append_assoc, pieces_escapeByte, ih]
    rfl

theorem content_unit {u : ℕ} (low : u < 0x20) (ps : List Piece) :
    content (.unit u :: ps) = UInt8.ofNat u :: content ps := by
  have single : ∀ u < 0x20, isHigh u = false ∧ unitBytes u = [UInt8.ofNat u] := by decide +kernel
  obtain ⟨high, bytes⟩ := single u low
  cases ps with
  | nil =>
    show unitBytes u ++ content [] = _
    rw [bytes]
    rfl
  | cons p ps =>
    cases p with
    | byte b =>
      show unitBytes u ++ content (.byte b :: ps) = _
      rw [bytes]
      rfl
    | unit v =>
      rw [content, high, bytes]
      rfl

theorem content_pieceOf (b : UInt8) (ps : List Piece) : content (pieceOf b :: ps) = b :: content ps := by
  unfold pieceOf
  split_ifs with h
  · rw [content_unit (UInt8.lt_iff_toNat_lt.mp h.1), UInt8.ofNat_toNat]
  · rfl

theorem string_quoted (s : Bytes) : Reader.string (s.flatMap escapeByte ++ 0x22 :: r) = some (s, r) := by
  have hc : content (s.map pieceOf) = s := by
    induction s with
    | nil => rfl
    | cons b s ih => rw [List.map_cons, content_pieceOf, ih]
  rw [Reader.string, pieces_quoted]
  show some (content (s.map pieceOf), r) = _
  rw [hc]

end Strings

theorem length_lt_quote (s : Bytes) : s.length < (quote s).length := by
  have escaped : ∀ b, 0 < (escapeByte b).length := by
    intro b
    unfold escapeByte
    split_ifs <;> simp
  have body : s.length ≤ (s.flatMap escapeByte).length := by
    induction s with
    | nil => simp
    | cons b s ih =>
      have := escaped b
      rw [List.flatMap_cons, List.length_append, List.length_cons]
      omega
  rw [quote, List.length_append, List.length_cons]
  omega

/-- The value is read from what is written of it, in front of whatever follows. -/
def Readable (v : Json) : Prop :=
  ∀ (depth : ℕ) (rest : Bytes), v.encode.length ≤ depth → value depth (v.encode ++ rest) = some (v, rest)

theorem readable_string (s : Bytes) : Readable (.string s) := by
  intro depth rest bound
  cases depth with
  | zero => simp [encode, quote] at bound
  | succ k =>
    have written : encode (.string s) ++ rest = 0x22 :: (s.flatMap escapeByte ++ 0x22 :: rest) := by
      simp [encode, quote]
    rw [written]
    show (Reader.string (s.flatMap escapeByte ++ 0x22 :: rest)).map _ = _
    rw [string_quoted]
    rfl

theorem name_quoted (n r : Bytes) : name (quote n ++ r) = some (n, r) := by
  have written : quote n ++ r = 0x22 :: (n.flatMap escapeByte ++ 0x22 :: r) := by simp [quote]
  rw [written]
  exact string_quoted n

theorem colon_written (r : Bytes) : colon (0x3a :: r) = some r := rfl

theorem members_encode {members : List (Bytes × Json)} (h : ∀ m ∈ members, Readable m.2) :
    ∀ (n : Bytes) (v : Json) (depth : ℕ) (rest : Bytes), Readable v →
      (quote n ++ 0x3a :: (v.encode ++ encodeMembers members)).length ≤ depth →
      Reader.members depth (quote n ++ 0x3a :: (v.encode ++ (encodeMembers members ++ rest))) =
        some ((n, v) :: members, rest) := by
  induction members with
  | nil =>
    intro n v depth rest readable bound
    cases depth with
    | zero => simp [quote] at bound
    | succ k =>
      have fits : v.encode.length ≤ k := by
        simp only [List.length_append, List.length_cons] at bound
        omega
      simp only [Reader.members, name_quoted, Option.bind_eq_bind, Option.bind_some, colon_written,
        readable _ _ fits]
      rw [encodeMembers]
      rfl
  | cons m members ih =>
    intro n v depth rest readable bound
    obtain ⟨here, later⟩ := List.forall_mem_cons.mp h
    cases depth with
    | zero => simp [quote] at bound
    | succ k =>
      have fits : v.encode.length ≤ k := by
        simp only [List.length_append, List.length_cons] at bound
        omega
      have rest_fits : (quote m.1 ++ 0x3a :: (m.2.encode ++ encodeMembers members)).length ≤ k := by
        simp only [encodeMembers, List.length_append, List.length_cons] at bound ⊢
        omega
      simp only [Reader.members, name_quoted, Option.bind_eq_bind, Option.bind_some, colon_written,
        readable _ _ fits]
      have next := ih later m.1 m.2 k rest here rest_fits
      have comma : skip (encodeMembers (m :: members) ++ rest) =
          0x2c :: (quote m.1 ++ 0x3a :: (m.2.encode ++ (encodeMembers members ++ rest))) := by
        simp [encodeMembers, skip, isSpace]
      rw [comma]
      simp only [next, Option.bind_some]
      rfl

theorem readable_object {members : List (Bytes × Json)} (h : ∀ m ∈ members, Readable m.2) :
    Readable (.object members) := by
  intro depth rest bound
  cases depth with
  | zero => cases members <;> simp [encode] at bound
  | succ k =>
    cases members with
    | nil => rfl
    | cons m members =>
      obtain ⟨here, later⟩ := List.forall_mem_cons.mp h
      have written : encode (.object (m :: members)) ++ rest =
          0x7b :: (quote m.1 ++ 0x3a :: (m.2.encode ++ (encodeMembers members ++ rest))) := by
        simp [encode]
      have fits : (quote m.1 ++ 0x3a :: (m.2.encode ++ encodeMembers members)).length ≤ k := by
        simp only [encode, List.length_append, List.length_cons] at bound ⊢
        omega
      have read := members_encode later m.1 m.2 k rest here fits
      rw [written]
      show (Reader.members k _).map _ = _
      rw [read]
      rfl

theorem readable_ofText (s : String) : Readable (ofText s) := readable_string _

theorem readable_ofMembers {members : List (String × Json)} (h : ∀ m ∈ members, Readable m.2) :
    Readable (ofMembers members) := by
  apply readable_object
  intro m hm
  obtain ⟨n, hn, rfl⟩ := List.mem_map.mp hm
  exact h n hn

theorem readable_texts {members : List (String × Json)} (h : ∀ m ∈ members, ∃ s, m.2 = ofText s) :
    Readable (ofMembers members) := by
  apply readable_ofMembers
  intro m hm
  obtain ⟨s, hs⟩ := h m hm
  rw [hs]
  exact readable_ofText s

theorem ofBytes?_encode {v : Json} (h : Readable v) : ofBytes? v.encode = some v := by
  have bound : v.encode.length ≤ 2 * v.encode.length + 2 := by omega
  have read := h _ [] bound
  rw [List.append_nil] at read
  rw [ofBytes?, read]
  rfl

end Countersign.Json
