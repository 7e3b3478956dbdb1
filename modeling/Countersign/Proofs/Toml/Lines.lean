import Mathlib.Data.Nat.Notation
import Mathlib.Tactic.SplitIfs
import Countersign.Proofs.Toml.Quoting
import Countersign.Toml.Statement

/-!
# Lines read back

An entry stands on lines of its own, as a name, an equals sign and a value; a header is a name in brackets.
Whatever follows such a line is left to be read, because neither a name, a number nor a text reads on past
what ends it.
-/

set_option autoImplicit false

namespace Countersign.Toml

section Spans

variable {p : Char → Bool} {c : Char} {body rest : List Char}

theorem takeWhile_stops (inside : ∀ c ∈ body, p c = true) (boundary : p c = false) :
    (body ++ c :: rest).takeWhile p = body := by
  rw [List.takeWhile_append_of_pos inside, List.takeWhile_cons_of_neg (by simp [boundary]), List.append_nil]

theorem dropWhile_stops (inside : ∀ c ∈ body, p c = true) (boundary : p c = false) :
    (body ++ c :: rest).dropWhile p = c :: rest := by
  rw [List.dropWhile_append_of_pos inside, List.dropWhile_cons_of_neg (by simp [boundary])]

theorem ne_of_class {e : Char} (h : p c = true) (other : p e = false) : c ≠ e := by
  rintro rfl
  exact Bool.false_ne_true (other.symm.trans h)

theorem skipBlanks_cons (h : isBlank c = false) : skipBlanks (c :: rest) = c :: rest :=
  List.dropWhile_cons_of_neg (by simp [h])

end Spans

section Numbers

variable {c : Char} {ds rest : List Char} {n : ℕ}

theorem isBlank_of_isDigit (h : c.isDigit = true) : isBlank c = false := by
  simp [isBlank, ne_of_class h (e := ' ') rfl, ne_of_class h (e := '\t') rfl]

theorem toList_toString (n : ℕ) : (toString n).toList = Nat.toDigits 10 n := by
  rw [Nat.toString_eq_ofList_toDigits, String.toList_ofList]

theorem isDigit_of_mem_toDigits (h : c ∈ Nat.toDigits 10 n) : c.isDigit = true :=
  Nat.isDigit_of_mem_toDigits (by decide) (by decide) h

theorem toDigits_cons (n : ℕ) : ∃ c r, Nat.toDigits 10 n = c :: r ∧ c.isDigit = true := by
  cases hd : Nat.toDigits 10 n with
  | nil => exact absurd hd Nat.toDigits_ne_nil
  | cons c r => exact ⟨c, r, rfl, isDigit_of_mem_toDigits (hd ▸ List.mem_cons_self)⟩

theorem head_toDigits_ne_zero (positive : 0 < n) : (Nat.toDigits 10 n).head? ≠ some '0' := by
  induction n using Nat.strongRecOn with
  | _ n ih =>
    rw [Nat.toDigits_eq_if (by decide)]
    split_ifs with h
    · have digits : ∀ n < 10, 0 < n → [n.digitChar].head? ≠ some '0' := by decide
      exact digits n h positive
    · have := ih (n / 10) (Nat.div_lt_self positive (by decide)) (by omega)
      obtain ⟨d, ds, hd, -⟩ := toDigits_cons (n / 10)
      simpa [hd] using this

theorem isGrouped_of_digits (some : ds ≠ []) (digits : ∀ c ∈ ds, c.isDigit = true) :
    isGrouped Char.isDigit ds = true := by
  fun_induction isGrouped Char.isDigit ds with
  | case1 => exact absurd rfl some
  | case2 c => exact digits c List.mem_cons_self
  | case3 c r ih =>
    have := digits '_' (List.mem_cons_of_mem _ List.mem_cons_self)
    exact absurd this (by decide)
  | case4 c r single underscore ih =>
    have later : ∀ c ∈ r, c.isDigit = true := fun c hc => digits c (List.mem_cons_of_mem _ hc)
    exact Bool.and_eq_true_iff.mpr ⟨digits c List.mem_cons_self, ih single later⟩

theorem natOfDigits_toDigits (n : ℕ) : natOfDigits 10 (Nat.toDigits 10 n) = n := by
  have fold : ∀ (ds : List Char) (m : ℕ), (∀ c ∈ ds, c.isDigit = true) →
      (ds.filter (· != '_')).foldl (fun n c => n * 10 + digitValue c) m = Nat.ofDigitChars 10 ds m := by
    intro ds
    induction ds with
    | nil => exact fun _ _ => rfl
    | cons c ds ih =>
      intro m digits
      have digit := digits c List.mem_cons_self
      have kept : (c != '_') = true := bne_iff_ne.mpr (ne_of_class digit (by decide))
      rw [List.filter_cons, if_pos kept, List.foldl_cons, digitValue, if_pos digit, Nat.mul_comm m 10]
      exact ih _ fun c hc => digits c (List.mem_cons_of_mem _ hc)
  rw [natOfDigits, fold _ _ fun _ => isDigit_of_mem_toDigits, Nat.ofDigitChars_ten_toDigits]

theorem decimal?_toDigits (n : ℕ) : decimal? (Nat.toDigits 10 n) = some n := by
  have grouped := isGrouped_of_digits Nat.toDigits_ne_nil fun _ => isDigit_of_mem_toDigits (n := n)
  have unpadded : ((Nat.toDigits 10 n).head? != some '0' || (Nat.toDigits 10 n).length == 1) = true := by
    rcases Nat.eq_zero_or_pos n with rfl | positive
    · rfl
    · exact Bool.or_eq_true_iff.mpr (.inl (bne_iff_ne.mpr (head_toDigits_ne_zero positive)))
  rw [decimal?, grouped, unpadded, natOfDigits_toDigits]
  rfl

theorem isDate_of_digits (digits : ∀ c ∈ ds, c.isDigit = true) : isDate ds = false := by
  unfold isDate
  split
  · exact absurd (digits '-' (by simp)) (by decide)
  · rfl

theorem afterTime?_of_digits (digits : ∀ c ∈ ds, c.isDigit = true) : afterTime? ds = none := by
  unfold afterTime?
  split
  · exact absurd (digits ':' (by simp)) (by decide)
  · rfl

theorem isMoment_of_digits (digits : ∀ c ∈ ds, c.isDigit = true) : isMoment ds = false := by
  have date := isDate_of_digits fun c (hc : c ∈ ds.take 10) => digits c (List.mem_of_mem_take hc)
  rw [isMoment, isDate_of_digits digits, afterTime?_of_digits digits, date]
  rfl

theorem isFloat_of_digits (digits : ∀ c ∈ ds, c.isDigit = true) : isFloat ds = false := by
  have unsigned : withoutSign ds = ds := by
    unfold withoutSign
    split
    · exact absurd (digits '+' (by simp)) (by decide)
    · exact absurd (digits '-' (by simp)) (by decide)
    · rfl
  have whole : ∀ c ∈ ds, (c.isDigit || c == '_') = true := fun c hc =>
    Bool.or_eq_true_iff.mpr (.inl (digits c hc))
  have word {w : List Char} (h : 'n' ∈ w) : (ds == w) = false := by
    refine beq_eq_false_iff_ne.mpr ?_
    rintro rfl
    exact absurd (digits 'n' h) (by decide)
  have plain : isPlainFloat ds = false := by
    rw [isPlainFloat, List.dropWhile_eq_nil_iff.mpr whole]
    exact Bool.and_false _
  rw [isFloat, unsigned, word (by decide), word (by decide), plain]
  rfl

theorem integer?_of_digits (digits : ∀ c ∈ ds, c.isDigit = true) :
    integer? ds = (decimal? ds).bind ofNat? := by
  unfold integer?
  split
  · exact absurd (digits 'x' (by simp)) (by decide)
  · exact absurd (digits 'o' (by simp)) (by decide)
  · exact absurd (digits 'b' (by simp)) (by decide)
  · exact absurd (digits '-' (by simp)) (by decide)
  · exact absurd (digits '+' (by simp)) (by decide)
  · rfl

theorem ofToken?_toDigits (fits : n < integerBound) : ofToken? (Nat.toDigits 10 n) = some (.integer n) := by
  have digits : ∀ c ∈ Nat.toDigits 10 n, c.isDigit = true := fun _ => isDigit_of_mem_toDigits
  have word {w : List Char} (h : 'e' ∈ w) : Nat.toDigits 10 n ≠ w := by
    intro hw
    exact absurd (digits 'e' (hw ▸ h)) (by decide)
  rw [ofToken?, if_neg (word (by decide)), if_neg (word (by decide)), if_neg, if_neg,
    integer?_of_digits digits, decimal?_toDigits, Option.bind_some, ofNat?, if_pos fits]
  · rfl
  · rw [isFloat_of_digits digits]
    exact Bool.false_ne_true
  · rw [isMoment_of_digits digits]
    exact Bool.false_ne_true

theorem scalar?_toDigits (fits : n < integerBound) (boundary : isTokenChar c = false) :
    scalar? (Nat.toDigits 10 n ++ c :: rest) = some (.integer n, c :: rest) := by
  have digits : ∀ c ∈ Nat.toDigits 10 n, c.isDigit = true := fun _ => isDigit_of_mem_toDigits
  have token : ∀ c ∈ Nat.toDigits 10 n, isTokenChar c = true := by
    intro c hc
    simp [isTokenChar, Char.isAlphanum, digits c hc]
  rw [scalar?, takeWhile_stops token boundary, dropWhile_stops token boundary, isDate_of_digits digits,
    ofToken?_toDigits fits]
  rfl

end Numbers

section Settings

variable {k depth : ℕ} {c : Char} {name : String} {setting : Setting} {r rest : List Char}

def Setting.value : Setting → Value
  | .text s => .string s
  | .number n => .integer n

def Setting.Fits : Setting → Prop
  | .text _ => True
  | .number n => n < integerBound

@[simp]
theorem Setting.fits_text (s : String) : (Setting.text s).Fits := trivial

@[simp]
theorem Setting.fits_number (n : ℕ) : (Setting.number n).Fits ↔ n < integerBound := Iff.rfl

def Bare (name : String) : Prop := name.toList ≠ [] ∧ ∀ c ∈ name.toList, isBareKeyChar c = true

theorem TextForm.mark_eq (form : TextForm) : form.mark = '"' ∨ form.mark = '\'' := by
  cases form
  · exact .inl rfl
  · exact .inr rfl
  · exact .inl rfl
  · exact .inr rfl

theorem TextForm.isBlank_mark (form : TextForm) : isBlank form.mark = false := by
  cases form <;> rfl

theorem Setting.chars_cons (setting : Setting) : ∃ c r, setting.chars = c :: r ∧ isBlank c = false := by
  cases setting with
  | text s =>
    obtain ⟨r, hr⟩ := (TextForm.choose s.toList).write_cons s.toList
    exact ⟨_, r, hr, TextForm.isBlank_mark _⟩
  | number n =>
    obtain ⟨c, r, hd, digit⟩ := toDigits_cons n
    exact ⟨c, r, (toList_toString n).trans hd, isBlank_of_isDigit digit⟩

theorem value?_quoted (mark : c = '"' ∨ c = '\'') :
    value? (k + 1) depth (c :: r) = (quoted? c (c :: r)).map fun p => (.string p.1, p.2) := by
  rw [value?.eq_def]
  exact if_pos mark

theorem value?_scalar (quote : ¬(c = '"' ∨ c = '\'')) (bracket : c ≠ '[') (brace : c ≠ '\x7b') :
    value? (k + 1) depth (c :: r) = scalar? (c :: r) := by
  rw [value?.eq_def]
  exact (if_neg quote).trans ((if_neg bracket).trans (if_neg brace))

/-- A value is read back in front of the end of its line. -/
theorem value?_chars (fits : setting.Fits) :
    value? (k + 1) depth (setting.chars ++ '\n' :: rest) = some (setting.value, '\n' :: rest) := by
  cases setting with
  | text s =>
    have shows := TextForm.shows_choose s.toList
    have mark := (TextForm.choose s.toList).mark_eq
    obtain ⟨r, hr⟩ := (TextForm.choose s.toList).write_cons s.toList
    have apart : ('\n' :: rest).head? ≠ some (TextForm.choose s.toList).mark := by
      rcases mark with h | h
      · rw [h]; simp
      · rw [h]; simp
    have read := quoted?_write shows apart
    rw [hr, List.cons_append] at read
    rw [Setting.chars, textChars, hr, List.cons_append, value?_quoted mark, read,
      String.ofList_toList]
    rfl
  | number n =>
    have read : scalar? (Nat.toDigits 10 n ++ '\n' :: rest) = some (.integer n, '\n' :: rest) :=
      scalar?_toDigits fits (by decide)
    obtain ⟨c, r, hd, digit⟩ := toDigits_cons n
    have quote : ¬(c = '"' ∨ c = '\'') := not_or.mpr ⟨ne_of_class digit rfl, ne_of_class digit rfl⟩
    rw [Setting.chars, toList_toString]
    rw [hd] at read ⊢
    exact (value?_scalar quote (ne_of_class digit rfl) (ne_of_class digit rfl)).trans read

theorem isBlank_of_isBareKeyChar (h : isBareKeyChar c = true) : isBlank c = false := by
  simp [isBlank, ne_of_class h (e := ' ') rfl, ne_of_class h (e := '\t') rfl]

theorem Bare.cons (bare : Bare name) : ∃ c r, name.toList = c :: r ∧ isBareKeyChar c = true := by
  cases hn : name.toList with
  | nil => exact absurd hn bare.1
  | cons c r => exact ⟨c, r, rfl, bare.2 c (hn ▸ List.mem_cons_self)⟩

theorem keyPart?_bare (bare : Bare name) (boundary : isBareKeyChar c = false) :
    keyPart? (name.toList ++ c :: r) = some (name, c :: r) := by
  have take : (name.toList ++ c :: r).takeWhile isBareKeyChar = name.toList :=
    takeWhile_stops bare.2 boundary
  have drop : (name.toList ++ c :: r).dropWhile isBareKeyChar = c :: r := dropWhile_stops bare.2 boundary
  obtain ⟨first, more, hn, head⟩ := bare.cons
  have other {e : Char} {s : List Char} (h : isBareKeyChar e = false) : name.toList ++ c :: r ≠ e :: s := by
    rw [hn, List.cons_append]
    exact fun hs => ne_of_class head h (List.cons.inj hs).1
  unfold keyPart?
  split
  · rename_i h
    exact absurd h (other rfl)
  · rename_i h
    exact absurd h (other rfl)
  · dsimp only
    rw [take, drop, String.ofList_toList]
    exact if_neg (by simpa using bare.1)

theorem path?_bare (bare : Bare name) (boundary : isBareKeyChar c = false)
    (single : ∀ s, skipBlanks (c :: r) ≠ '.' :: s) :
    path? (k + 1) (name.toList ++ c :: r) = some ([name], skipBlanks (c :: r)) := by
  obtain ⟨first, more, hn, head⟩ := bare.cons
  have skip : skipBlanks (name.toList ++ c :: r) = name.toList ++ c :: r := by
    rw [hn]
    exact skipBlanks_cons (isBlank_of_isBareKeyChar head)
  rw [path?, skip, keyPart?_bare bare boundary]
  -- the remaining match tells a dot from everything else, and `single` excludes the dot
  simp only [Option.bind_eq_bind, Option.bind_some]
  rfl

theorem entryKey?_bare (bare : Bare name) :
    entryKey? (name.toList ++ ' ' :: '=' :: ' ' :: r) = some ([name], skipBlanks r) := by
  rw [entryKey?, maxDepth, path?_bare bare rfl]
  · rfl
  · intro s h
    nomatch h

theorem statement?_line (bare : Bare name) (fits : setting.Fits) :
    statement? (setting.line name ++ rest) = some (.entry [name] setting.value, rest) := by
  obtain ⟨first, more, hn, head⟩ := bare.cons
  obtain ⟨c, r, hc, blank⟩ := setting.chars_cons
  have text : setting.line name ++ rest =
      name.toList ++ ' ' :: '=' :: ' ' :: (setting.chars ++ '\n' :: rest) := by
    simp [Setting.line]
  have skip : skipBlanks (setting.chars ++ '\n' :: rest) = setting.chars ++ '\n' :: rest := by
    rw [hc]
    exact skipBlanks_cons blank
  have key := entryKey?_bare (r := setting.chars ++ '\n' :: rest) bare
  rw [skip] at key
  rw [text]
  unfold statement?
  split
  · rename_i h
    rw [hn] at h
    exact absurd (List.cons.inj h).1 (ne_of_class head rfl)
  · rename_i h
    rw [hn] at h
    exact absurd (List.cons.inj h).1 (ne_of_class head rfl)
  · rw [key]
    change ((value? _ maxDepth (setting.chars ++ '\n' :: rest)).bind fun _ => _) = _
    rw [value?_chars fits]
    rfl

theorem statement?_header (bare : Bare name) :
    statement? ('[' :: (name.toList ++ ']' :: '\n' :: rest)) = some (.table [name], rest) := by
  obtain ⟨first, more, hn, head⟩ := bare.cons
  have path : path? maxDepth (name.toList ++ ']' :: '\n' :: rest) = some ([name], ']' :: '\n' :: rest) :=
    path?_bare bare rfl fun s h => nomatch h
  unfold statement?
  split
  · rename_i h
    rw [hn] at h
    exact absurd (List.cons.inj (List.cons.inj h).2).1 (ne_of_class head rfl)
  · rename_i h
    rw [← (List.cons.inj h).2, path]
    rfl
  · rename_i h
    exact absurd rfl (h _)

end Settings

end Countersign.Toml
