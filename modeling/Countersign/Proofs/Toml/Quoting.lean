import Mathlib.Data.List.TakeWhile
import Mathlib.Data.Nat.Notation
import Mathlib.Tactic.SplitIfs
import Countersign.Toml.Writer

/-!
# Texts read back

A text is read back from any form that can show it, whatever it holds. Two readers look for the end of a
text, and an escape leads neither of them astray: it is a character that is neither quote nor backslash, or
a backslash with what belongs to it. Between tripled quotes no run of quotes in the text is longer than two,
so that the closing run is the only one to be found, with the quotes of the text in front of it.
-/

set_option autoImplicit false

namespace Countersign.Toml

section Escapes

variable {c e : Char} {r : List Char}

def IsPlain (c : Char) : Prop := c ≠ '"' ∧ c ≠ '\\' ∧ isLineChar c = true

inductive Escape (c : Char) : List Char → Prop where
  | plain (plain : IsPlain c) : Escape c [c]
  | short {e : Char} (stands : escaped? e = some c) : Escape c ['\\', e]
  | numbered {d₁ d₂ d₃ d₄ : Char} (plain : ∀ d ∈ [d₁, d₂, d₃, d₄], IsPlain d)
    (stands : numbered? [d₁, d₂, d₃, d₄] = some c) : Escape c ['\\', 'u', d₁, d₂, d₃, d₄]

theorem numbered?_hexQuad {n : ℕ} (h : n < 0x80) :
    (∀ d ∈ hexQuad n, IsPlain d) ∧ numbered? (hexQuad n) = some (Char.ofNat n) := by
  have all : ∀ n < 0x80, ((hexQuad n).all fun d => d != '"' && (d != '\\' && isLineChar d)) = true ∧
      numbered? (hexQuad n) = some (Char.ofNat n) := by decide +kernel
  obtain ⟨plain, stands⟩ := all n h
  refine ⟨fun d hd => ?_, stands⟩
  simpa only [IsPlain, Bool.and_eq_true, bne_iff_ne] using List.all_eq_true.mp plain d hd

theorem isLineChar_of_not_needsNumber (h : needsNumber c = false) :
    isLineChar c = true ∨ c = '\n' := by
  simp only [needsNumber, Bool.or_eq_false_iff, Bool.and_eq_false_iff, decide_eq_false_iff_not,
    bne_eq_false_iff_eq, beq_eq_false_iff_ne] at h
  simp only [isLineChar, Bool.or_eq_true, Bool.and_eq_true, decide_eq_true_eq, beq_iff_eq]
  grind

theorem escape_spec (c : Char) : Escape c (escape c) := by
  unfold escape
  split_ifs with h₁ h₂ h₃ h₄ h₅ h₆ h₇
  · exact .short (by rw [h₁]; rfl)
  · exact .short (by rw [h₂]; rfl)
  · exact .short (by rw [h₃]; rfl)
  · exact .short (by rw [h₄]; rfl)
  · exact .short (by rw [h₅]; rfl)
  · rcases h₆ with rfl | rfl
    · exact .short rfl
    · exact .short rfl
  · have small : c.toNat < 0x80 := by
      simp only [needsNumber, Bool.or_eq_true, Bool.and_eq_true, decide_eq_true_eq, beq_iff_eq] at h₇
      omega
    obtain ⟨plain, stands⟩ := numbered?_hexQuad small
    rw [Char.ofNat_toNat] at stands
    exact .numbered plain stands
  · obtain ⟨quote, backslash⟩ := not_or.mp h₆
    have shown := isLineChar_of_not_needsNumber (Bool.not_eq_true _ ▸ h₇)
    exact .plain ⟨quote, backslash, shown.resolve_right h₂⟩

/-- What stands behind the backslash of a short escape neither ends a line nor opens a number. -/
theorem escaped?_stands (stands : escaped? e = some c) :
    isBlank e = false ∧ e ≠ '\n' ∧ e ≠ 'u' ∧ e ≠ 'U' ∧ isLineChar e = true := by
  unfold escaped? at stands
  split at stands <;> first | exact ⟨rfl, by decide, by decide, by decide, rfl⟩ | nomatch stands

theorem isLineChar_of_mem_escape (h : e ∈ escape c) : isLineChar e = true := by
  have spec := escape_spec c
  generalize escape c = w at h spec
  cases spec with
  | plain plain =>
    rw [List.mem_singleton.mp h]
    exact plain.2.2
  | short stands =>
    rcases List.mem_cons.mp h with rfl | h
    · rfl
    · rw [List.mem_singleton.mp h]
      exact (escaped?_stands stands).2.2.2.2
  | numbered plain stands =>
    rcases List.mem_cons.mp h with rfl | h
    · rfl
    · rcases List.mem_cons.mp h with rfl | h
      · rfl
      · exact (plain e h).2.2

theorem head_escape_ne_quote (c : Char) (r : List Char) : (escape c ++ r).head? ≠ some '"' := by
  have spec := escape_spec c
  generalize escape c = w at spec
  cases spec with
  | plain plain => simpa using plain.1
  | short stands => simp
  | numbered plain stands => simp

/-- A reader of raw content that passes over what ends no text. -/
structure Passes (read : List Char → Option (List Char × List Char)) : Prop where
  plain : ∀ c r, c ≠ '"' → c ≠ '\\' → read (c :: r) = (read r).map fun p => (c :: p.1, p.2)
  pair : ∀ c r, read ('\\' :: c :: r) = (read r).map fun p => ('\\' :: c :: p.1, p.2)

theorem Passes.escape {read : List Char → Option (List Char × List Char)} (passes : Passes read)
    (c : Char) (r : List Char) :
    read (escape c ++ r) = (read r).map fun p => (Toml.escape c ++ p.1, p.2) := by
  have spec := escape_spec c
  generalize Toml.escape c = w at spec
  cases spec with
  | plain plain => exact passes.plain c r plain.1 plain.2.1
  | short stands => exact passes.pair _ r
  | numbered plain stands =>
    rename_i d₁ d₂ d₃ d₄
    have digit : ∀ d ∈ [d₁, d₂, d₃, d₄], ∀ r,
        read (d :: r) = (read r).map fun p => (d :: p.1, p.2) :=
      fun d hd r => passes.plain d r (plain d hd).1 (plain d hd).2.1
    simp only [List.cons_append, List.nil_append, passes.pair, digit d₁ (by simp), digit d₂ (by simp),
      digit d₃ (by simp), digit d₄ (by simp), Option.map_map]
    rfl

theorem unescape_plain (backslash : c ≠ '\\') :
    unescape false (c :: r) = (unescape false r).map (c :: ·) := by
  rw [unescape.eq_6 _ _ _ (fun _ _ _ _ _ h => absurd h backslash)
    (fun _ _ _ _ _ _ _ _ _ h => absurd h backslash) (fun h => absurd h backslash)
    (fun _ _ h => absurd h backslash)]
  exact if_neg fun h => Bool.false_ne_true h.1

theorem unescape_escape (c : Char) (r : List Char) :
    unescape false (escape c ++ r) = (unescape false r).map (c :: ·) := by
  have spec := escape_spec c
  generalize escape c = w at spec
  cases spec with
  | plain plain => exact unescape_plain plain.2.1
  | @short e stands =>
    obtain ⟨blank, break', u, u', -⟩ := escaped?_stands stands
    have inner : endsLine (e :: r) = false := by
      simp [endsLine, blank, break']
    change unescape false ('\\' :: e :: r) = _
    rw [unescape.eq_5 _ _ _ (fun _ _ _ _ _ h => absurd h u) (fun _ _ _ _ _ _ _ _ _ h => absurd h u'),
      if_neg (Bool.eq_false_iff.mp inner), stands]
    cases unescape false r <;> rfl
  | numbered plain stands =>
    change unescape false ('\\' :: 'u' :: _ :: _ :: _ :: _ :: r) = _
    rw [unescape, stands]
    cases unescape false r <;> rfl

theorem unescape_flatMap_escape (cs : List Char) : unescape false (cs.flatMap escape) = some cs := by
  induction cs with
  | nil => rfl
  | cons c r ih => rw [List.flatMap_cons, unescape_escape, ih]; rfl

theorem unescape_escapeLines (quotes : ℕ) (cs : List Char) :
    unescape false (escapeLines quotes cs) = some cs := by
  induction cs generalizing quotes with
  | nil => rfl
  | cons c r ih =>
    rw [escapeLines]
    split_ifs with h₁ h₂ h₃
    · rw [h₁]
      exact (unescape_escape '"' _).trans (by rw [ih]; rfl)
    · rw [unescape_plain (by decide), ih, h₁]
      rfl
    · rw [unescape_plain (by decide), ih, h₃]
      rfl
    · rw [unescape_escape, ih]
      rfl

theorem isLineChar_of_mem_flatMap_escape {cs : List Char} (h : e ∈ cs.flatMap escape) :
    isLineChar e = true := by
  obtain ⟨c, -, he⟩ := List.mem_flatMap.mp h
  exact isLineChar_of_mem_escape he

theorem isLineChar_of_mem_escapeLines {quotes : ℕ} {cs : List Char} (h : e ∈ escapeLines quotes cs) :
    isLineChar e = true ∨ (e = '\n' ∧ '\n' ∈ cs) := by
  induction cs generalizing quotes with
  | nil => nomatch h
  | cons c r ih =>
    have later {quotes : ℕ} (h : e ∈ escapeLines quotes r) :
        isLineChar e = true ∨ (e = '\n' ∧ '\n' ∈ c :: r) :=
      (ih h).imp_right fun h => ⟨h.1, List.mem_cons_of_mem _ h.2⟩
    rw [escapeLines] at h
    split_ifs at h with h₁ h₂ h₃
    · rcases List.mem_cons.mp h with rfl | h
      · exact .inl rfl
      · rcases List.mem_cons.mp h with rfl | h
        · exact .inl rfl
        · exact later h
    · rcases List.mem_cons.mp h with rfl | h
      · exact .inl rfl
      · exact later h
    · rcases List.mem_cons.mp h with rfl | h
      · exact .inr ⟨rfl, h₃ ▸ List.mem_cons_self⟩
      · exact later h
    · rcases List.mem_append.mp h with h | h
      · exact .inl (isLineChar_of_mem_escape h)
      · exact later h

end Escapes

section OneLine

variable {mark c : Char} {escapes : Bool} {r rest : List Char}

theorem rawLine_mark : rawLine mark escapes (mark :: r) = some ([], r) := by
  cases r <;> simp [rawLine]

theorem rawLine_cons (other : c ≠ mark) (plain : ¬(escapes = true ∧ c = '\\')) :
    rawLine mark escapes (c :: r) = (rawLine mark escapes r).map fun p => (c :: p.1, p.2) := by
  cases r with
  | nil => exact if_neg other
  | cons x r => rw [rawLine, if_neg other, if_neg plain]

theorem passes_rawLine : Passes (rawLine '"' true) where
  plain _ _ quote backslash := rawLine_cons quote fun h => backslash h.2
  pair _ _ := by rw [rawLine, if_neg (by decide), if_pos ⟨rfl, rfl⟩]

theorem rawLine_basic (cs rest : List Char) :
    rawLine '"' true (cs.flatMap escape ++ '"' :: rest) = some (cs.flatMap escape, rest) := by
  induction cs with
  | nil => exact rawLine_mark
  | cons c r ih =>
    rw [List.flatMap_cons, List.append_assoc, passes_rawLine.escape, ih]
    rfl

theorem rawLine_literal {cs : List Char} (h : mark ∉ cs) :
    rawLine mark false (cs ++ mark :: rest) = some (cs, rest) := by
  induction cs with
  | nil => exact rawLine_mark
  | cons c r ih =>
    obtain ⟨head, tail⟩ := not_or.mp (mt List.mem_cons.mpr h)
    rw [List.cons_append, rawLine_cons (Ne.symm head) (fun h => Bool.false_ne_true h.1), ih tail]
    rfl

end OneLine

section ManyLines

variable {mark c : Char} {escapes : Bool} {r rest : List Char}

theorem closing?_of_ne (other : c ≠ mark) : closing? mark (c :: r) = none := by
  simp [closing?, other]

/-- Tripled quotes close a text that has no such run in front as soon as nothing but quotes stands between,
and those quotes belong to the text. -/
theorem closing?_append {body : List Char} (short : (body.takeWhile (· == mark)).length ≤ 2)
    (apart : rest.head? ≠ some mark) :
    closing? mark (body ++ mark :: mark :: mark :: rest) =
      if body.all (· == mark) then some (body, rest) else none := by
  have stops : rest.takeWhile (· == mark) = [] := by
    cases rest with
    | nil => rfl
    | cons c r => exact List.takeWhile_cons_of_neg (by simpa using apart)
  split_ifs with h
  · have marks : ∀ c ∈ body, (c == mark) = true := List.all_eq_true.mp h
    have body_eq : body = List.replicate body.length mark :=
      List.eq_replicate_iff.mpr ⟨rfl, fun c hc => by simpa using marks c hc⟩
    have run : ((body ++ mark :: mark :: mark :: rest).takeWhile (· == mark)).length = body.length + 3 := by
      rw [List.takeWhile_append_of_pos marks]
      simp [stops]
    rw [List.takeWhile_eq_self_iff.mpr marks] at short
    have five : min (body.length + 3) 5 = body.length + 3 := by omega
    have two : min body.length 2 = body.length := by omega
    simp only [closing?, run, Nat.add_sub_cancel, five, two, ← body_eq]
    rw [if_neg (by omega)]
    simp
  · have part : ¬(body.takeWhile (· == mark)).length = body.length := by
      intro same
      refine h (List.all_eq_true.mpr (List.takeWhile_eq_self_iff.mp ?_))
      exact (List.takeWhile_prefix _).eq_of_length same
    simp only [closing?, List.takeWhile_append, if_neg part]
    rw [if_pos (by omega)]

theorem rawLines_closed {p : List Char × List Char} (h : closing? mark (c :: r) = some p) :
    rawLines mark escapes (c :: r) = some p := by
  cases r with
  | nil =>
    have run : ([c].takeWhile (· == mark)).length < 3 :=
      (List.takeWhile_prefix _).length_le.trans_lt (Nat.lt_add_of_pos_right Nat.two_pos)
    rw [closing?, if_pos run] at h
    nomatch h
  | cons x r => rw [rawLines, h]

theorem rawLines_cons (h : closing? mark (c :: r) = none) (plain : ¬(escapes = true ∧ c = '\\')) :
    rawLines mark escapes (c :: r) = (rawLines mark escapes r).map fun p => (c :: p.1, p.2) := by
  cases r with
  | nil => rfl
  | cons x r =>
    rw [rawLines, h]
    exact if_neg plain

theorem passes_rawLines : Passes (rawLines '"' true) where
  plain _ _ quote backslash := rawLines_cons (closing?_of_ne quote) fun h => backslash h.2
  pair _ _ := by
    rw [rawLines, closing?_of_ne (by decide)]
    exact if_pos ⟨rfl, rfl⟩

theorem rawLines_append {body : List Char} (short : ((c :: body).takeWhile (· == mark)).length ≤ 2)
    (apart : rest.head? ≠ some mark) (plain : ¬(escapes = true ∧ c = '\\'))
    (later : rawLines mark escapes (body ++ mark :: mark :: mark :: rest) = some (body, rest)) :
    rawLines mark escapes (c :: body ++ mark :: mark :: mark :: rest) = some (c :: body, rest) := by
  have closed := closing?_append short apart
  split_ifs at closed
  · exact rawLines_closed closed
  · rw [List.cons_append] at closed ⊢
    rw [rawLines_cons closed plain, later]
    rfl

theorem rawLines_nil (apart : rest.head? ≠ some mark) :
    rawLines mark escapes (mark :: mark :: mark :: rest) = some ([], rest) := by
  have closed : closing? mark ([] ++ mark :: mark :: mark :: rest) = some ([], rest) :=
    closing?_append (Nat.zero_le 2) apart
  exact rawLines_closed closed

theorem takeWhile_of_hasTriple {cs : List Char} (h : hasTriple mark cs = false) :
    (cs.takeWhile (· == mark)).length ≤ 2 := by
  match cs with
  | [] => exact Nat.zero_le 2
  | [a] => exact (List.takeWhile_prefix _).length_le.trans (Nat.le_succ 1)
  | [a, b] => exact (List.takeWhile_prefix _).length_le
  | a :: b :: c :: r =>
    rw [hasTriple, Bool.or_eq_false_iff] at h
    simp only [List.takeWhile_cons]
    split_ifs <;> simp_all

theorem rawLines_literal {cs : List Char} (h : hasTriple mark cs = false) (apart : rest.head? ≠ some mark) :
    rawLines mark false (cs ++ mark :: mark :: mark :: rest) = some (cs, rest) := by
  induction cs with
  | nil => exact rawLines_nil apart
  | cons c r ih =>
    have tail : hasTriple mark r = false := by
      match r with
      | [] | [_] => rfl
      | x :: y :: r => exact (Bool.or_eq_false_iff.mp h).2
    exact rawLines_append (takeWhile_of_hasTriple h) apart (fun h => Bool.false_ne_true h.1) (ih tail)

theorem takeWhile_escapeLines {quotes : ℕ} (h : quotes ≤ 2) (cs : List Char) :
    ((escapeLines quotes cs).takeWhile (· == '"')).length ≤ 2 - quotes := by
  induction cs generalizing quotes with
  | nil => exact Nat.zero_le _
  | cons c r ih =>
    rw [escapeLines]
    split_ifs with h₁ h₂ h₃
    · exact Nat.zero_le _
    · have := ih (by omega : quotes + 1 ≤ 2)
      simp only [List.takeWhile_cons, beq_self_eq_true, if_true, List.length_cons]
      omega
    · exact Nat.zero_le _
    · have head := head_escape_ne_quote c (escapeLines 0 r)
      generalize escape c ++ escapeLines 0 r = body at head
      cases body with
      | nil => exact Nat.zero_le _
      | cons x body =>
        rw [List.takeWhile_cons_of_neg (by simpa using head)]
        exact Nat.zero_le _

theorem rawLines_escapeLines {quotes : ℕ} (h : quotes ≤ 2) (cs : List Char)
    (apart : rest.head? ≠ some '"') :
    rawLines '"' true (escapeLines quotes cs ++ '"' :: '"' :: '"' :: rest) =
      some (escapeLines quotes cs, rest) := by
  induction cs generalizing quotes with
  | nil => exact rawLines_nil apart
  | cons c r ih =>
    have short := takeWhile_escapeLines h (c :: r)
    rw [escapeLines] at short ⊢
    split_ifs with h₁ h₂ h₃
    · rw [List.cons_append, List.cons_append, passes_rawLines.pair, ih (Nat.zero_le 2)]
      rfl
    · rw [if_pos h₁, if_neg h₂] at short
      exact rawLines_append (short.trans (Nat.sub_le 2 quotes)) apart (by decide) (ih (by omega))
    · rw [List.cons_append, passes_rawLines.plain _ _ (by decide) (by decide), ih (Nat.zero_le 2)]
      rfl
    · rw [List.append_assoc, passes_rawLines.escape, ih (Nat.zero_le 2)]
      rfl

end ManyLines

section Forms

/-- What a form asks of a text: literal forms have no escapes. -/
def TextForm.Shows (cs : List Char) : TextForm → Prop
  | .basic | .basicLines => True
  | .literal => '\'' ∉ cs ∧ ∀ c ∈ cs, isLineChar c = true
  | .literalLines => hasTriple '\'' cs = false ∧ ∀ c ∈ cs, isLineChar c = true ∨ c = '\n'

def TextForm.body (cs : List Char) : TextForm → List Char
  | .basic => cs.flatMap escape
  | .basicLines => escapeLines 0 cs
  | .literal | .literalLines => cs

def TextForm.mark : TextForm → Char
  | .basic | .basicLines => '"'
  | .literal | .literalLines => '\''

variable {mark e : Char} {cs body raw content rest : List Char} {form : TextForm}

theorem TextForm.shows_choose (cs : List Char) : (TextForm.choose cs).Shows cs := by
  have shown (plain : (!cs.any needsNumber) = true) {c : Char} (hc : c ∈ cs) :
      isLineChar c = true ∨ c = '\n' := by
    rw [Bool.not_eq_true', List.any_eq_false] at plain
    exact isLineChar_of_not_needsNumber (Bool.not_eq_true _ ▸ plain c hc)
  unfold TextForm.choose
  dsimp only
  split_ifs with h₁ h₂ h₃ h₄ h₅
  · trivial
  · simp only [Bool.and_eq_true] at h₂
    obtain ⟨⟨plain, lines⟩, quote⟩ := h₂
    refine ⟨by simpa using quote, fun c hc => (shown plain hc).resolve_right ?_⟩
    rintro rfl
    simp [hc] at lines
  · trivial
  · obtain ⟨plain, triple⟩ := Bool.and_eq_true_iff.mp h₄
    exact ⟨by simpa using triple, fun c hc => shown plain hc⟩
  · trivial
  · trivial

theorem TextForm.write_cons (form : TextForm) (cs : List Char) : ∃ r, form.write cs = form.mark :: r := by
  cases form <;> exact ⟨_, rfl⟩

theorem lineText?_of_raw {text : List Char} (read : rawLine mark (mark == '"') text = some (raw, rest))
    (shown : ∀ c ∈ raw, isLineChar c = true) (means : meaning? (mark == '"') raw = some content) :
    lineText? mark text = some (String.ofList content, rest) := by
  rw [lineText?, read]
  exact (if_pos (List.all_eq_true.mpr shown)).trans (by rw [means]; rfl)

theorem linesText?_of_raw {text : List Char}
    (read : rawLines mark (mark == '"') (withoutFirstBreak text) = some (raw, rest))
    (shown : ∀ c ∈ raw, isLineChar c = true ∨ c = '\n')
    (means : meaning? (mark == '"') raw = some content) :
    linesText? mark text = some (String.ofList content, rest) := by
  rw [linesText?, read]
  refine (if_pos (List.all_eq_true.mpr fun c hc => ?_)).trans (by rw [means]; rfl)
  simpa using shown c hc

theorem quoted?_line (inner : body.head? ≠ some mark) (apart : rest.head? ≠ some mark) :
    quoted? mark (mark :: (body ++ mark :: rest)) = lineText? mark (body ++ mark :: rest) := by
  rcases body with - | ⟨b, - | ⟨c, body⟩⟩
  · cases rest with
    | nil => exact if_pos rfl
    | cons x rest => exact (if_pos rfl).trans (if_neg fun h => apart (congrArg some h.2))
  · exact (if_pos rfl).trans (if_neg fun h => inner (congrArg some h.1))
  · exact (if_pos rfl).trans (if_neg fun h => inner (congrArg some h.1))

theorem quoted?_lines (r : List Char) : quoted? mark (mark :: mark :: mark :: r) = linesText? mark r :=
  (if_pos rfl).trans (if_pos ⟨rfl, rfl⟩)

theorem withoutFirstBreak_firstBreak (inner : '\n' ∈ body → '\n' ∈ cs) (other : mark ≠ '\n') :
    withoutFirstBreak (firstBreak cs ++ (body ++ mark :: rest)) = body ++ mark :: rest := by
  by_cases has : '\n' ∈ cs
  · rw [firstBreak, if_pos (by simpa using has)]
    rfl
  · rw [firstBreak, if_neg (by simpa using has), List.nil_append]
    cases body with
    | nil => simp [withoutFirstBreak, other]
    | cons c body =>
      have : c ≠ '\n' := by
        rintro rfl
        exact has (inner List.mem_cons_self)
      simp [withoutFirstBreak, this]

/-- A text is read back from each form that can show it. -/
theorem quoted?_write (shows : form.Shows cs) (apart : rest.head? ≠ some form.mark) :
    quoted? form.mark (form.write cs ++ rest) = some (String.ofList cs, rest) := by
  cases form with
  | basic =>
    have inner : (cs.flatMap escape).head? ≠ some '"' := by
      cases cs with
      | nil => simp
      | cons c r => exact head_escape_ne_quote c (r.flatMap escape)
    have shown : ∀ c ∈ cs.flatMap escape, isLineChar c = true := fun _ hc =>
      isLineChar_of_mem_flatMap_escape hc
    simp only [TextForm.write, TextForm.mark, List.append_assoc, List.cons_append, List.nil_append]
    rw [quoted?_line inner apart]
    exact lineText?_of_raw (rawLine_basic cs rest) shown (unescape_flatMap_escape cs)
  | literal =>
    obtain ⟨quote, shown⟩ := shows
    have inner : cs.head? ≠ some '\'' := fun h => quote (List.mem_of_mem_head? h)
    simp only [TextForm.write, TextForm.mark, List.append_assoc, List.cons_append, List.nil_append]
    rw [quoted?_line inner apart]
    exact lineText?_of_raw (rawLine_literal quote) shown rfl
  | basicLines =>
    have shown : ∀ c ∈ escapeLines 0 cs, isLineChar c = true ∨ c = '\n' := fun _ hc =>
      (isLineChar_of_mem_escapeLines hc).imp_right And.left
    have inner : '\n' ∈ escapeLines 0 cs → '\n' ∈ cs := fun h =>
      ((isLineChar_of_mem_escapeLines h).resolve_left (by decide)).2
    have read := rawLines_escapeLines (Nat.zero_le 2) cs apart
    rw [← withoutFirstBreak_firstBreak inner (by decide)] at read
    simp only [TextForm.write, TextForm.mark, List.append_assoc, List.cons_append, List.nil_append]
    rw [quoted?_lines]
    exact linesText?_of_raw read shown (unescape_escapeLines 0 cs)
  | literalLines =>
    obtain ⟨triple, shown⟩ := shows
    have read := rawLines_literal triple apart
    rw [← withoutFirstBreak_firstBreak id (by decide)] at read
    simp only [TextForm.write, TextForm.mark, List.append_assoc, List.cons_append, List.nil_append]
    rw [quoted?_lines]
    exact linesText?_of_raw read shown rfl

theorem mem_write (h : e ∈ form.write cs) : e = form.mark ∨ e = '\n' ∨ e ∈ form.body cs := by
  have first (h : e ∈ firstBreak cs) : e = '\n' := by
    unfold firstBreak at h
    split_ifs at h
    · exact List.mem_singleton.mp h
    · nomatch h
  cases form with
  | basic | literal =>
    simp only [TextForm.write, List.cons_append, List.mem_cons, List.mem_append, List.not_mem_nil,
      or_false] at h
    exact h.elim .inl fun h => h.elim (.inr ∘ .inr) .inl
  | basicLines | literalLines =>
    simp only [TextForm.write, List.mem_cons, List.mem_append, List.not_mem_nil, or_false, or_self] at h
    rcases h with ((h | h) | h) | h
    · exact .inl h
    · exact .inr (.inl (first h))
    · exact .inr (.inr h)
    · exact .inl h

theorem isLineChar_of_mem_write (shows : form.Shows cs) (h : e ∈ form.write cs) :
    isLineChar e = true ∨ e = '\n' := by
  rcases mem_write h with rfl | h | h
  · cases form <;> exact .inl rfl
  · exact .inr h
  · cases form with
    | basic => exact .inl (isLineChar_of_mem_flatMap_escape h)
    | literal => exact .inl (shows.2 e h)
    | basicLines => exact (isLineChar_of_mem_escapeLines h).imp_right And.left
    | literalLines => exact shows.2 e h

end Forms

end Countersign.Toml
