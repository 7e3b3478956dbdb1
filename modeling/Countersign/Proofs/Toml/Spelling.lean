import Mathlib.Data.List.DropRight
import Countersign.Proofs.Toml.Sections

/-!
# Ways of writing a document

A document leaves its writer free in much: blanks around keys and values, comments, names with and without
quotes, the form of a text or a number, arrays over several lines. The rules by which it is put together
are given here as relations between characters and what they stand for. Only the spelling of a single text,
number or date is left to the reader; how keys, arrays, tables, lines and documents are built from them is
said without it. Whatever is written by the rules is read as what it stands for.

The rules take a limit: no key has more parts, and no value is nested deeper.
-/

set_option autoImplicit false

namespace Countersign.Toml

section Rules

def Blanks (b : List Char) : Prop := ∀ c ∈ b, isBlank c = true

instance (b : List Char) : Decidable (Blanks b) := decidable_of_iff (b.all isBlank = true) List.all_eq_true

instance (name : String) : Decidable (Bare name) :=
  decidable_of_iff (name.toList ≠ [] ∧ name.toList.all isBareKeyChar = true)
    (and_congr_right fun _ => List.all_eq_true)

inductive Comment : List Char → Prop where
  | none : Comment []
  | note {note : List Char} (shown : ∀ c ∈ note, isLineChar c = true) : Comment ('#' :: note)

inductive Tail : List Char → Prop where
  | mk {b note : List Char} (blanks : Blanks b) (comment : Comment note) : Tail (b ++ note)

inductive Gap : List Char → Prop where
  | nil : Gap []
  | blank {c : Char} {g : List Char} (blank : isBlank c = true) (more : Gap g) : Gap (c :: g)
  | line {g : List Char} (more : Gap g) : Gap ('\n' :: g)
  | comment {note g : List Char} (shown : ∀ c ∈ note, isLineChar c = true) (more : Gap g) :
    Gap ('#' :: (note ++ '\n' :: g))

inductive KeyPart : List Char → String → Prop where
  | bare {name : String} (bare : Bare name) : KeyPart name.toList name
  | quoted {mark : Char} {w : List Char} {name : String} (quote : mark = '"' ∨ mark = '\'')
    (text : ∀ r, lineText? mark (w ++ r) = some (name, r)) : KeyPart (mark :: w) name

inductive KeyPath : List Char → Path → Prop where
  | single {b w b' : List Char} {name : String} (blanks : Blanks b) (part : KeyPart w name)
    (blanks' : Blanks b') : KeyPath (b ++ w ++ b') [name]
  | dotted {b w b' rest : List Char} {name : String} {path : Path} (blanks : Blanks b) (part : KeyPart w name)
    (blanks' : Blanks b') (more : KeyPath rest path) : KeyPath (b ++ w ++ b' ++ '.' :: rest) (name :: path)

def Ends (r : List Char) : Prop :=
  ∀ c, (skipBlanks r).head? = some c → c = '\n' ∨ c = '#' ∨ c = ',' ∨ c = ']' ∨ c = '\x7d'

/-- What is written: a value, the items of an array up to its bracket, or entries that are added to a table
up to its brace. -/
inductive Piece where
  | value (v : Value)
  | items (vs : List Value)
  | entries (t t' : Table)

/-- The number is how deep a value may still be nested. -/
inductive Spells (limit : ℕ) : ℕ → List Char → Piece → Prop where
  | text {d : ℕ} {mark : Char} {w : List Char} {s : String} (quote : mark = '"' ∨ mark = '\'')
    (text : ∀ r, Ends r → quoted? mark (mark :: (w ++ r)) = some (s, r)) :
    Spells limit d (mark :: w) (.value (.string s))
  | scalar {d : ℕ} {c : Char} {w : List Char} {v : Value} (first : isTokenChar c = true)
    (reads : ∀ r, Ends r → scalar? (c :: (w ++ r)) = some (v, r)) : Spells limit d (c :: w) (.value v)
  | noItems {d : ℕ} {g : List Char} (gap : Gap g) : Spells limit (d + 1) ('[' :: (g ++ [']'])) (.value (.array []))
  | array {d : ℕ} {g w : List Char} {vs : List Value} (gap : Gap g) (items : Spells limit d w (.items vs)) :
    Spells limit (d + 1) ('[' :: (g ++ w)) (.value (.array vs))
  | last {d : ℕ} {w g : List Char} {v : Value} (value : Spells limit d w (.value v)) (gap : Gap g) :
    Spells limit d (w ++ g ++ [']']) (.items [v])
  | lastComma {d : ℕ} {w g g' : List Char} {v : Value} (value : Spells limit d w (.value v)) (gap : Gap g)
    (gap' : Gap g') : Spells limit d (w ++ g ++ ',' :: (g' ++ [']'])) (.items [v])
  | item {d : ℕ} {w g g' rest : List Char} {v : Value} {vs : List Value} (value : Spells limit d w (.value v))
    (gap : Gap g) (gap' : Gap g') (more : Spells limit d rest (.items vs)) :
    Spells limit d (w ++ g ++ ',' :: (g' ++ rest)) (.items (v :: vs))
  | noEntries {d : ℕ} {b : List Char} (blanks : Blanks b) :
    Spells limit (d + 1) ('\x7b' :: (b ++ ['\x7d'])) (.value (.table .closed []))
  | table {d : ℕ} {w : List Char} {t : Table} (entries : Spells limit d w (.entries [] t)) :
    Spells limit (d + 1) ('\x7b' :: w) (.value (.table .closed t))
  | lastEntry {d : ℕ} {k b w b' : List Char} {path : Path} {v : Value} {t t' : Table} (key : KeyPath k path)
    (short : path.length ≤ limit) (blanks : Blanks b) (value : Spells limit d w (.value v)) (blanks' : Blanks b')
    (added : t.insert path v = some t') :
    Spells limit d (k ++ '=' :: (b ++ w ++ b' ++ ['\x7d'])) (.entries t t')
  | entry {d : ℕ} {k b w b' rest : List Char} {path : Path} {v : Value} {t t' t'' : Table} (key : KeyPath k path)
    (short : path.length ≤ limit) (blanks : Blanks b) (value : Spells limit d w (.value v)) (blanks' : Blanks b')
    (added : t.insert path v = some t') (more : Spells limit d rest (.entries t' t'')) :
    Spells limit d (k ++ '=' :: (b ++ w ++ b' ++ ',' :: rest)) (.entries t t'')

/-- A line that says nothing, an entry, whose value may go over several lines, or a header. -/
inductive Line (limit : ℕ) : List Char → Option Statement → Prop where
  | silent {w : List Char} (ends : Tail w) : Line limit w none
  | entry {k b w tail : List Char} {path : Path} {v : Value} (key : KeyPath k path)
    (short : path.length ≤ limit) (blanks : Blanks b) (value : Spells limit limit w (.value v)) (ends : Tail tail) :
    Line limit (k ++ '=' :: (b ++ w ++ tail)) (some (.entry path v))
  | table {b k tail : List Char} {path : Path} (blanks : Blanks b) (key : KeyPath k path)
    (short : path.length ≤ limit) (ends : Tail tail) :
    Line limit (b ++ '[' :: (k ++ ']' :: tail)) (some (.table path))
  | element {b k tail : List Char} {path : Path} (blanks : Blanks b) (key : KeyPath k path)
    (short : path.length ≤ limit) (ends : Tail tail) :
    Line limit (b ++ '[' :: '[' :: (k ++ ']' :: ']' :: tail)) (some (.element path))

inductive Lines (limit : ℕ) : List Char → List Statement → Prop where
  | last {w : List Char} {s : Option Statement} (line : Line limit w s) : Lines limit w s.toList
  | cons {w cs : List Char} {s : Option Statement} {ss : List Statement} (line : Line limit w s)
    (more : Lines limit cs ss) : Lines limit (w ++ '\n' :: cs) (s.toList ++ ss)

/-- A text may start with a mark of its byte order and break its lines with two characters. -/
def Written (limit : ℕ) (text : String) (ss : List Statement) : Prop :=
  Lines limit (unifyBreaks (withoutMark text.toList)) ss

end Rules

section Skipping

variable {b g r : List Char} {c : Char}

theorem skipBlanks_append (blanks : Blanks b) : skipBlanks (b ++ r) = skipBlanks r :=
  List.dropWhile_append_of_pos blanks

theorem skipGaps_note {note : List Char} (shown : ∀ c ∈ note, isLineChar c = true) :
    skipGaps true (note ++ '\n' :: r) = skipGaps false r := by
  induction note with
  | nil => rfl
  | cons c note ih =>
    rw [List.cons_append, skipGaps, if_pos rfl, if_pos (shown c List.mem_cons_self)]
    exact ih fun d hd => shown d (List.mem_cons_of_mem _ hd)

theorem skipGaps_append (gap : Gap g) : skipGaps false (g ++ r) = skipGaps false r := by
  induction gap with
  | nil => rfl
  | blank blank _ ih =>
    rw [List.cons_append, skipGaps, if_neg Bool.false_ne_true, if_pos (.inl blank)]
    exact ih
  | line _ ih => exact ih
  | comment shown _ ih =>
    rw [List.cons_append, List.append_assoc, skipGaps, if_neg Bool.false_ne_true, if_neg (by decide), if_pos rfl]
    exact (skipGaps_note shown).trans ih

theorem skipGaps_cons (blank : isBlank c = false) (line : c ≠ '\n') (note : c ≠ '#') :
    skipGaps false (c :: r) = c :: r := by
  rw [skipGaps, if_neg Bool.false_ne_true, if_neg, if_neg note]
  rw [blank]
  exact fun h => h.elim Bool.false_ne_true line

def LineRest (r next : List Char) : Prop := r = '\n' :: next ∨ (r = [] ∧ next = [])

theorem lineEnd?_tail {tail next : List Char} (h : Tail tail) (end' : LineRest r next) :
    lineEnd? (tail ++ r) = some next := by
  obtain ⟨blanks, comment⟩ := h
  rw [lineEnd?, List.append_assoc, skipBlanks_append blanks]
  cases comment with
  | none => rcases end' with rfl | ⟨rfl, rfl⟩ <;> rfl
  | @note note shown =>
    have skip : skipBlanks ('#' :: note ++ r) = '#' :: (note ++ r) := skipBlanks_cons rfl
    rw [skip, withoutComment]
    rcases end' with rfl | ⟨rfl, rfl⟩
    · rw [dropWhile_stops shown rfl]
      rfl
    · rw [List.append_nil, List.dropWhile_eq_nil_iff.mpr shown]

end Skipping

section Keys

variable {w b r : List Char} {c : Char} {name : String} {path : Path} {k : ℕ}

def startsKey (c : Char) : Bool := c == '"' || c == '\'' || isBareKeyChar c

theorem isBlank_of_startsKey (h : startsKey c = true) : isBlank c = false := by
  simp [isBlank, ne_of_class h (e := ' ') rfl, ne_of_class h (e := '\t') rfl]

theorem KeyPart.cons (h : KeyPart w name) : ∃ c r, w = c :: r ∧ startsKey c = true := by
  cases h with
  | bare bare =>
    obtain ⟨c, r, hw, head⟩ := bare.cons
    exact ⟨c, r, hw, by simp [startsKey, head]⟩
  | quoted quote =>
    refine ⟨_, _, rfl, ?_⟩
    rcases quote with rfl | rfl <;> rfl

theorem KeyPart.reads (h : KeyPart w name) (boundary : isBareKeyChar c = false) :
    keyPart? (w ++ c :: r) = some (name, c :: r) := by
  cases h with
  | bare bare => exact keyPart?_bare bare boundary
  | quoted quote text => rcases quote with rfl | rfl <;> exact text _

theorem KeyPart.escaped (name : String) : KeyPart ('"' :: (name.toList.flatMap escape ++ ['"'])) name := by
  refine .quoted (.inl rfl) fun r => ?_
  rw [List.append_assoc, List.singleton_append]
  have read := lineText?_of_raw (rawLine_basic name.toList r) (fun _ hc => isLineChar_of_mem_flatMap_escape hc)
    (unescape_flatMap_escape name.toList)
  rwa [String.ofList_toList] at read

theorem KeyPart.reads_blanks (h : KeyPart w name) (blanks : Blanks b) (boundary : isBareKeyChar c = false) :
    keyPart? (w ++ (b ++ c :: r)) = some (name, b ++ c :: r) := by
  cases b with
  | nil => exact h.reads boundary
  | cons x b =>
    have blank := blanks x List.mem_cons_self
    refine h.reads ?_
    by_contra bare
    rw [Bool.not_eq_false] at bare
    exact Bool.false_ne_true ((isBlank_of_isBareKeyChar bare).symm.trans blank)

theorem skipBlanks_part (blanks : Blanks b) (part : KeyPart w name) (r : List Char) :
    skipBlanks (b ++ (w ++ r)) = w ++ r := by
  obtain ⟨c, w', rfl, head⟩ := part.cons
  rw [skipBlanks_append blanks]
  exact skipBlanks_cons (isBlank_of_startsKey head)

theorem KeyPath.reads (h : KeyPath w path) (short : path.length ≤ k) (bare : isBareKeyChar c = false)
    (blank : isBlank c = false) (dot : c ≠ '.') : path? k (w ++ c :: r) = some (path, c :: r) := by
  induction h generalizing k with
  | @single b w b' name blanks part blanks' =>
    obtain ⟨k, rfl⟩ : ∃ n, k = n + 1 := Nat.exists_eq_add_one.mpr short
    have after : skipBlanks (b' ++ c :: r) = c :: r := (skipBlanks_append blanks').trans (skipBlanks_cons blank)
    rw [List.append_assoc, List.append_assoc, path?, skipBlanks_part blanks part,
      part.reads_blanks blanks' bare, Option.bind_eq_bind, Option.bind_some]
    dsimp only
    rw [after]
    split
    · rename_i h
      exact absurd (List.cons.inj h).1 dot
    · rfl
  | @dotted b w b' rest name path blanks part blanks' more ih =>
    obtain ⟨k, rfl⟩ : ∃ n, k = n + 1 := Nat.exists_eq_add_one.mpr (Nat.zero_lt_of_lt short)
    have after : skipBlanks (b' ++ '.' :: (rest ++ c :: r)) = '.' :: (rest ++ c :: r) :=
      (skipBlanks_append blanks').trans (skipBlanks_cons rfl)
    have text : b ++ w ++ b' ++ '.' :: rest ++ c :: r = b ++ (w ++ (b' ++ '.' :: (rest ++ c :: r))) := by simp
    rw [text, path?, skipBlanks_part blanks part, part.reads_blanks blanks' rfl, Option.bind_eq_bind,
      Option.bind_some]
    dsimp only
    rw [after]
    change ((path? k (rest ++ c :: r)).bind fun p => some (name :: p.1, p.2)) = _
    rw [ih (Nat.le_of_succ_le_succ short)]
    rfl

theorem KeyPath.skip (h : KeyPath w path) : ∃ b c r, w = b ++ c :: r ∧ Blanks b ∧ startsKey c = true ∧
    KeyPath (c :: r) path := by
  have none : Blanks [] := fun _ h => nomatch h
  cases h with
  | @single b w b' name blanks part blanks' =>
    obtain ⟨c, w, rfl, head⟩ := part.cons
    exact ⟨b, c, w ++ b', by simp, blanks, head, .single none part blanks'⟩
  | @dotted b w b' rest name path blanks part blanks' more =>
    obtain ⟨c, w, rfl, head⟩ := part.cons
    exact ⟨b, c, w ++ b' ++ '.' :: rest, by simp, blanks, head, .dotted none part blanks' more⟩

theorem KeyPath.entryKey? (h : KeyPath w path) (short : path.length ≤ maxDepth) (blanks : Blanks b)
    (first : isBlank c = false) : entryKey? (w ++ '=' :: (b ++ c :: r)) = some (path, c :: r) := by
  have value : skipBlanks (b ++ c :: r) = c :: r := (skipBlanks_append blanks).trans (skipBlanks_cons first)
  rw [Toml.entryKey?, h.reads short rfl rfl (by decide), Option.bind_eq_bind, Option.bind_some]
  exact congrArg (fun rest => some (path, rest)) value

end Keys

section Reader

variable {d k : ℕ} {cs cs' r r' rest : List Char} {c : Char} {path : Path}
  {v : Value} {vs : List Value} {t t' t'' : Table}

theorem value?_bracket : value? (k + 1) (d + 1) ('[' :: r) =
    match skipGaps false r with
    | ']' :: rest => some (.array [], rest)
    | r' => (items? k d r').map fun p => (.array p.1, p.2) := by
  rw [value?.eq_def]
  rfl

theorem value?_brace : value? (k + 1) (d + 1) ('\x7b' :: r) =
    match skipBlanks r with
    | '\x7d' :: rest => some (.table .closed [], rest)
    | r' => (entries? k d [] r').map fun p => (.table .closed p.1, p.2) := by
  rw [value?.eq_def]
  rfl

theorem value?_array (next : skipGaps false r = c :: cs') (open' : c ≠ ']')
    (items : items? k d (c :: cs') = some (vs, rest)) :
    value? (k + 1) (d + 1) ('[' :: r) = some (.array vs, rest) := by
  simp [value?_bracket, next, open', items]

theorem value?_table (next : skipBlanks r = c :: cs') (open' : c ≠ '\x7d')
    (entries : entries? k d [] (c :: cs') = some (t, rest)) :
    value? (k + 1) (d + 1) ('\x7b' :: r) = some (.table .closed t, rest) := by
  simp [value?_brace, next, open', entries]

theorem items?_of_value (value : value? k d cs = some (v, r)) : items? (k + 1) d cs =
    match skipGaps false r with
    | ']' :: rest => some ([v], rest)
    | ',' :: r' =>
      match skipGaps false r' with
      | ']' :: rest => some ([v], rest)
      | r'' => (items? k d r'').bind fun p => some (v :: p.1, p.2)
    | _ => none := by
  rw [items?.eq_def]
  dsimp only
  rw [value]
  rfl

theorem items?_last (value : value? k d cs = some (v, r)) (close : skipGaps false r = ']' :: rest) :
    items? (k + 1) d cs = some ([v], rest) := by
  rw [items?_of_value value, close]
  rfl

theorem items?_lastComma (value : value? k d cs = some (v, r)) (comma : skipGaps false r = ',' :: r')
    (close : skipGaps false r' = ']' :: rest) : items? (k + 1) d cs = some ([v], rest) := by
  simp [items?_of_value value, comma, close]

theorem items?_item (value : value? k d cs = some (v, r)) (comma : skipGaps false r = ',' :: r')
    (next : skipGaps false r' = c :: cs') (open' : c ≠ ']') (more : items? k d (c :: cs') = some (vs, rest)) :
    items? (k + 1) d cs = some (v :: vs, rest) := by
  simp [items?_of_value value, comma, next, open', more]

theorem entries?_skip (k d : ℕ) (t : Table) (cs : List Char) :
    entries? k d t (skipBlanks cs) = entries? k d t cs := by
  have again : skipBlanks (skipBlanks cs) = skipBlanks cs := List.dropWhile_idempotent _ cs
  have key : entryKey? (skipBlanks cs) = entryKey? cs := by
    rw [entryKey?, entryKey?, maxDepth, path?, path?, again]
  cases k with
  | zero => rw [entries?.eq_def, entries?.eq_def]
  | succ k => rw [entries?, entries?, key]

theorem entries?_of_entry (key : entryKey? cs = some (path, r)) (value : value? k d r = some (v, r'))
    (added : t.insert path v = some t') : entries? (k + 1) d t cs =
    match skipBlanks r' with
    | '\x7d' :: rest => some (t', rest)
    | ',' :: r'' => entries? k d t' r''
    | _ => none := by
  rw [entries?.eq_def]
  dsimp only
  rw [key, Option.bind_eq_bind, Option.bind_some]
  dsimp only
  rw [value, Option.bind_eq_bind, Option.bind_some]
  dsimp only
  rw [added]
  rfl

end Reader

section Values

variable {limit d k : ℕ} {w r : List Char} {c : Char} {piece : Piece} {v : Value} {vs : List Value} {t t' : Table}

def startsValue (c : Char) : Bool := c == '"' || c == '\'' || isTokenChar c || c == '[' || c == '\x7b'

theorem isBlank_of_startsValue (h : startsValue c = true) : isBlank c = false := by
  simp [isBlank, ne_of_class h (e := ' ') rfl, ne_of_class h (e := '\t') rfl]

theorem skipGaps_of_startsValue (h : startsValue c = true) : skipGaps false (c :: r) = c :: r :=
  skipGaps_cons (isBlank_of_startsValue h) (ne_of_class h rfl) (ne_of_class h rfl)

def Piece.Starts (w : List Char) : Piece → Prop
  | .value _ => ∃ c r, w = c :: r ∧ startsValue c = true
  | .items _ => ∃ c r, w = c :: r ∧ startsValue c = true
  | .entries _ _ => ∃ b c r, w = b ++ c :: r ∧ Blanks b ∧ startsKey c = true

theorem Spells.starts (h : Spells limit d w piece) : piece.Starts w := by
  induction h with
  | text quote => rcases quote with rfl | rfl <;> exact ⟨_, _, rfl, rfl⟩
  | scalar first => exact ⟨_, _, rfl, by simp [startsValue, first]⟩
  | noItems | array | noEntries | table => exact ⟨_, _, rfl, rfl⟩
  | last _ _ ih | lastComma _ _ _ ih | item _ _ _ _ ih =>
    obtain ⟨c, r, rfl, first⟩ := ih
    exact ⟨c, _, rfl, first⟩
  | lastEntry key | entry key =>
    obtain ⟨b, c, r, rfl, blanks, first, -⟩ := key.skip
    exact ⟨b, c, _, by rw [List.append_assoc, List.cons_append], blanks, first⟩

/-- What is written is read, whatever follows. -/
def Piece.Read (d : ℕ) (w : List Char) : Piece → Prop
  | .value v => ∀ k r, 2 * w.length ≤ k → Ends r → value? k d (w ++ r) = some (v, r)
  | .items vs => ∀ k r, 2 * w.length ≤ k → items? k d (w ++ r) = some (vs, r)
  | .entries t t' => ∀ k r, 2 * w.length ≤ k → entries? k d t (w ++ r) = some (t', r)

theorem ends_cons (h : c = '\n' ∨ c = '#' ∨ c = ',' ∨ c = ']' ∨ c = '\x7d') : Ends (c :: r) := by
  have blank : isBlank c = false := by rcases h with rfl | rfl | rfl | rfl | rfl <;> rfl
  intro e he
  rw [skipBlanks_cons blank] at he
  obtain rfl := Option.some.inj he
  exact h

theorem Ends.blanks {b : List Char} (blanks : Blanks b) (h : Ends r) : Ends (b ++ r) := by
  intro e he
  rw [skipBlanks_append blanks] at he
  exact h e he

theorem Ends.gap {g : List Char} (gap : Gap g) (h : Ends r) : Ends (g ++ r) := by
  induction gap with
  | nil => exact h
  | @blank c g blank _ ih => exact ih.blanks (b := [c]) (by simpa [Blanks] using blank)
  | line => exact ends_cons (.inl rfl)
  | comment => exact ends_cons (.inr (.inl rfl))

theorem Ends.tail {tail next : List Char} (h : Tail tail) (end' : LineRest r next) : Ends (tail ++ r) := by
  obtain ⟨blanks, comment⟩ := h
  rw [List.append_assoc]
  refine Ends.blanks blanks ?_
  cases comment with
  | note => exact ends_cons (.inr (.inl rfl))
  | none =>
    rcases end' with rfl | ⟨rfl, -⟩
    · exact ends_cons (.inl rfl)
    · intro e he
      nomatch he

theorem skipGaps_close {g : List Char} (gap : Gap g) (h : c = ',' ∨ c = ']') :
    skipGaps false (g ++ c :: r) = c :: r := by
  rw [skipGaps_append gap]
  rcases h with rfl | rfl <;> rfl

theorem skipBlanks_close {b : List Char} (blanks : Blanks b) (h : c = ',' ∨ c = '\x7d') :
    skipBlanks (b ++ c :: r) = c :: r := by
  rw [skipBlanks_append blanks]
  rcases h with rfl | rfl <;> rfl

theorem Spells.reads (h : Spells maxDepth d w piece) : piece.Read d w := by
  have positive {k n : ℕ} (bound : 2 * n ≤ k) (some' : 0 < n) : ∃ m, k = m + 1 := ⟨k - 1, by omega⟩
  induction h with
  | text quote text =>
    intro k r bound ends
    obtain ⟨k, rfl⟩ := positive bound (by simp)
    rw [List.cons_append, value?_quoted quote, text r ends]
    rfl
  | scalar first reads =>
    intro k r bound ends
    obtain ⟨k, rfl⟩ := positive bound (by simp)
    have quote := not_or.mpr ⟨ne_of_class (e := '"') first rfl, ne_of_class (e := '\'') first rfl⟩
    rw [List.cons_append, value?_scalar quote (ne_of_class first rfl) (ne_of_class first rfl), reads r ends]
  | noItems gap =>
    intro k r bound ends
    obtain ⟨k, rfl⟩ := positive bound (by simp)
    rw [List.cons_append, List.append_assoc, value?_bracket, List.singleton_append, skipGaps_close gap (.inr rfl)]
    rfl
  | array gap items ih =>
    intro k r bound ends
    obtain ⟨k, rfl⟩ := positive bound (by simp)
    obtain ⟨c, w, rfl, first⟩ := items.starts
    rw [List.cons_append, List.append_assoc]
    refine value?_array ((skipGaps_append gap).trans (skipGaps_of_startsValue first)) (ne_of_class first rfl) ?_
    exact ih k r (by simp at bound ⊢; omega)
  | last value gap ih =>
    intro k r bound
    obtain ⟨k, rfl⟩ := positive bound (by simp only [List.length_append, List.length_cons]; omega)
    simp only [List.append_assoc, List.singleton_append]
    exact items?_last (ih k _ (by simp at bound; omega) ((ends_cons (by simp)).gap gap)) (skipGaps_close gap (.inr rfl))
  | lastComma value gap gap' ih =>
    intro k r bound
    obtain ⟨k, rfl⟩ := positive bound (by simp only [List.length_append, List.length_cons]; omega)
    simp only [List.append_assoc, List.cons_append, List.nil_append]
    exact items?_lastComma (ih k _ (by simp at bound; omega) ((ends_cons (by simp)).gap gap))
      (skipGaps_close gap (.inl rfl)) (skipGaps_close gap' (.inr rfl))
  | item value gap gap' more ih later =>
    intro k r bound
    obtain ⟨k, rfl⟩ := positive bound (by simp only [List.length_append, List.length_cons]; omega)
    obtain ⟨c, w, rfl, first⟩ := more.starts
    simp only [List.append_assoc, List.cons_append]
    refine items?_item (ih k _ (by simp at bound; omega) ((ends_cons (by simp)).gap gap))
      (skipGaps_close gap (.inl rfl)) ((skipGaps_append gap').trans (skipGaps_of_startsValue first))
      (ne_of_class first rfl) ?_
    exact later k r (by simp at bound ⊢; omega)
  | noEntries blanks =>
    intro k r bound ends
    obtain ⟨k, rfl⟩ := positive bound (by simp)
    rw [List.cons_append, List.append_assoc, value?_brace, List.singleton_append, skipBlanks_close blanks (.inr rfl)]
    rfl
  | table entries ih =>
    intro k r bound ends
    obtain ⟨k, rfl⟩ := positive bound (by simp)
    obtain ⟨b, c, w, rfl, blanks, first⟩ := entries.starts
    have next : skipBlanks (b ++ c :: w ++ r) = c :: (w ++ r) := by
      rw [List.append_assoc, skipBlanks_append blanks]
      exact skipBlanks_cons (isBlank_of_startsKey first)
    refine value?_table next (ne_of_class first rfl) ?_
    rw [← next, entries?_skip]
    exact ih k r (by simp at bound ⊢; omega)
  | lastEntry key short blanks value blanks' added ih =>
    intro k r bound
    obtain ⟨k, rfl⟩ := positive bound (by simp only [List.length_append, List.length_cons]; omega)
    obtain ⟨c, w, rfl, first⟩ := value.starts
    have read := ih k _ (by simp at bound ⊢; omega) ((ends_cons (c := '\x7d') (r := r) (by simp)).blanks blanks')
    simp only [List.append_assoc, List.cons_append, List.nil_append] at read ⊢
    rw [entries?_of_entry (key.entryKey? short blanks (isBlank_of_startsValue first)) read added,
      skipBlanks_close blanks' (.inr rfl)]
    rfl
  | @entry _ _ _ _ _ rest _ _ _ _ _ key short blanks value blanks' added more ih later =>
    intro k r bound
    obtain ⟨k, rfl⟩ := positive bound (by simp only [List.length_append, List.length_cons]; omega)
    obtain ⟨c, w, rfl, first⟩ := value.starts
    have read := ih k _ (by simp at bound ⊢; omega) ((ends_cons (c := ',') (r := rest ++ r) (by simp)).blanks blanks')
    simp only [List.append_assoc, List.cons_append] at read ⊢
    rw [entries?_of_entry (key.entryKey? short blanks (isBlank_of_startsValue first)) read added,
      skipBlanks_close blanks' (.inl rfl)]
    exact later k r (by simp at bound; omega)

theorem Ends.head? {p : Char → Bool} (outside : [' ', '\t', '\n', '#', ',', ']', '\x7d'].any p = false)
    (ends : Ends r) (hc : r.head? = some c) : p c = false := by
  cases r with
  | nil => nomatch hc
  | cons x r =>
    obtain rfl := Option.some.inj hc
    refine Bool.eq_false_iff.mpr (List.any_eq_false.mp outside x ?_)
    by_cases blank : isBlank x = true
    · rcases Bool.or_eq_true_iff.mp blank with space | tab
      · simp [eq_of_beq space]
      · simp [eq_of_beq tab]
    · have next := ends x (by rw [skipBlanks_cons (Bool.eq_false_iff.mpr blank)]; rfl)
      rcases next with rfl | rfl | rfl | rfl | rfl <;> decide

theorem Spells.token {ds : List Char} (some' : ds ≠ []) (token : ∀ c ∈ ds, isTokenChar c = true)
    (date : isDate ds = false) (reads : ofToken? ds = some v) : Spells limit d ds (.value v) := by
  cases ds with
  | nil => exact absurd rfl some'
  | cons c w =>
    refine .scalar (token c List.mem_cons_self) fun r ends => ?_
    have boundary : ∀ c, r.head? = some c → isTokenChar c = false := fun c hc => ends.head? (by decide) hc
    have take : (c :: w ++ r).takeWhile isTokenChar = c :: w := by
      rw [List.takeWhile_append_of_pos token]
      cases r with
      | nil => simp
      | cons x r => simp [boundary x rfl]
    have drop : (c :: w ++ r).dropWhile isTokenChar = r := by
      rw [List.dropWhile_append_of_pos token]
      cases r with
      | nil => simp
      | cons x r => simp [boundary x rfl]
    rw [← List.cons_append, scalar?, take, drop, date, reads]
    rfl

theorem Spells.setting {setting : Setting} (fits : setting.Fits) :
    Spells limit d setting.chars (.value setting.value) := by
  cases setting with
  | text s =>
    have mark := (TextForm.choose s.toList).mark_eq
    obtain ⟨w, hw⟩ := (TextForm.choose s.toList).write_cons s.toList
    rw [Setting.chars, textChars, hw]
    refine .text mark fun r ends => ?_
    have apart : r.head? ≠ some (TextForm.choose s.toList).mark := by
      intro hr
      have outside := ends.head? (p := fun c => c == '"' || c == '\'') (by decide) hr
      refine absurd outside ?_
      rcases mark with h | h <;> rw [h] <;> decide
    have read := quoted?_write (TextForm.shows_choose s.toList) apart
    rwa [hw, String.ofList_toList] at read
  | number n =>
    have digits : ∀ c ∈ Nat.toDigits 10 n, c.isDigit = true := fun _ => isDigit_of_mem_toDigits
    rw [Setting.chars, toList_toString]
    refine .token Nat.toDigits_ne_nil (fun c hc => ?_) (isDate_of_digits digits) (ofToken?_toDigits fits)
    simp [isTokenChar, Char.isAlphanum, digits c hc]

end Values

section Documents

variable {b k w tail r next cs text : List Char} {c : Char} {path : Path} {v : Value} {s : Option Statement}
  {ss : List Statement}

theorem Reads.blanks (blanks : Blanks b) (later : Reads cs ss) : Reads (b ++ cs) ss := by
  intro k bound
  rw [List.length_append] at bound
  rw [← later k (by omega)]
  cases k with
  | zero => rfl
  | succ k => rw [statements?, statements?, skipBlanks_append blanks]

theorem Reads.rest (later : Reads next ss) (end' : LineRest r next) : Reads r ss := by
  rcases end' with rfl | ⟨rfl, rfl⟩
  · exact later.emptyLine
  · exact later

theorem LineRest.length_le (end' : LineRest r next) : next.length ≤ r.length := by
  rcases end' with rfl | ⟨rfl, rfl⟩ <;> simp

theorem Reads.silent (h : Tail tail) (end' : LineRest r next) (later : Reads next ss) : Reads (tail ++ r) ss := by
  obtain ⟨blanks, comment⟩ := h
  rw [List.append_assoc]
  refine Reads.blanks blanks ?_
  cases comment with
  | none => exact later.rest end'
  | @note note shown =>
    have line : lineEnd? ('#' :: note ++ r) = some next := lineEnd?_tail (.mk (b := []) nofun (.note shown)) end'
    refine reads_of_succ fun k bound => ?_
    change (do statements? k (← lineEnd? ('#' :: note ++ r))) = _
    rw [line]
    have := end'.length_le
    refine later k ?_
    simp only [List.length_append, List.length_cons] at bound
    omega

theorem statement?_entry (open' : c ≠ '[') (key : entryKey? (c :: text) = some (path, r))
    (value : value? (2 * r.length + 2) maxDepth r = some (v, cs)) (ends : lineEnd? cs = some next) :
    statement? (c :: text) = some (.entry path v, next) := by
  unfold statement?
  split
  · rename_i h
    exact absurd (List.cons.inj h).1 open'
  · rename_i h
    exact absurd (List.cons.inj h).1 open'
  · rw [key, Option.bind_eq_bind, Option.bind_some]
    dsimp only
    rw [value, Option.bind_eq_bind, Option.bind_some]
    dsimp only
    rw [ends]
    rfl

theorem KeyPath.head_ne (key : KeyPath k path) : ∀ c, (k ++ r).head? = some c → c ≠ '[' := by
  obtain ⟨b, c, r, rfl, blanks, first, -⟩ := key.skip
  cases b with
  | nil =>
    rintro e ⟨⟩
    exact ne_of_class first rfl
  | cons x b =>
    rintro e ⟨⟩
    have blank : isBlank x = true := blanks x List.mem_cons_self
    exact ne_of_class blank rfl

theorem statement?_table (key : KeyPath k path) (short : path.length ≤ maxDepth) (ends : lineEnd? r = some next) :
    statement? ('[' :: (k ++ ']' :: r)) = some (.table path, next) := by
  have read : path? maxDepth (k ++ ']' :: r) = some (path, ']' :: r) := key.reads short rfl rfl (by decide)
  unfold statement?
  split
  · rename_i h
    exact absurd rfl (key.head_ne _ (congrArg List.head? (List.cons.inj h).2))
  · rename_i h
    rw [← (List.cons.inj h).2, read]
    change ((lineEnd? r).bind fun rest => some (Statement.table path, rest)) = _
    rw [ends]
    rfl
  · rename_i h
    exact absurd rfl (h _)

theorem statement?_element (key : KeyPath k path) (short : path.length ≤ maxDepth)
    (ends : lineEnd? r = some next) :
    statement? ('[' :: '[' :: (k ++ ']' :: ']' :: r)) = some (.element path, next) := by
  have read : path? maxDepth (k ++ ']' :: ']' :: r) = some (path, ']' :: ']' :: r) :=
    key.reads short rfl rfl (by decide)
  rw [statement?, read]
  change ((lineEnd? r).bind fun rest => some (Statement.element path, rest)) = _
  rw [ends]
  rfl

theorem Line.reads (line : Line maxDepth w s) (end' : LineRest r next) (later : Reads next ss) :
    Reads (w ++ r) (s.toList ++ ss) := by
  have shorter := end'.length_le
  cases line with
  | silent ends => exact later.silent ends end'
  | @entry k b w tail path v key short blanks value ends =>
    obtain ⟨b', c, k, rfl, blanks', first, key⟩ := key.skip
    obtain ⟨x, w, rfl, start⟩ := value.starts
    have text : b' ++ c :: k ++ '=' :: (b ++ x :: w ++ tail) ++ r =
        b' ++ c :: (k ++ '=' :: (b ++ x :: (w ++ (tail ++ r)))) := by simp
    have read := value.reads (2 * (x :: (w ++ (tail ++ r))).length + 2) (tail ++ r) (by simp; omega) (.tail ends end')
    rw [text]
    refine Reads.blanks blanks' (later.statement (isBlank_of_startsKey first) (ne_of_class first rfl)
      (ne_of_class first rfl) (statement?_entry (ne_of_class first rfl)
        (key.entryKey? short blanks (isBlank_of_startsValue start)) read (lineEnd?_tail ends end')) ?_)
    simp only [List.length_append, List.length_cons]
    omega
  | @table b k tail path blanks key short ends =>
    have text : b ++ '[' :: (k ++ ']' :: tail) ++ r = b ++ '[' :: (k ++ ']' :: (tail ++ r)) := by simp
    rw [text]
    refine Reads.blanks blanks (later.statement rfl (by decide) (by decide)
      (statement?_table key short (lineEnd?_tail ends end')) ?_)
    simp only [List.length_append, List.length_cons]
    omega
  | @element b k tail path blanks key short ends =>
    have text : b ++ '[' :: '[' :: (k ++ ']' :: ']' :: tail) ++ r =
        b ++ '[' :: '[' :: (k ++ ']' :: ']' :: (tail ++ r)) := by simp
    rw [text]
    refine Reads.blanks blanks (later.statement rfl (by decide) (by decide)
      (statement?_element key short (lineEnd?_tail ends end')) ?_)
    simp only [List.length_append, List.length_cons]
    omega

theorem Lines.reads (lines : Lines maxDepth cs ss) : Reads cs ss := by
  induction lines with
  | last line => simpa using line.reads (.inr ⟨rfl, rfl⟩) reads_nil
  | cons line _ ih => exact line.reads (.inl rfl) ih

theorem Written.statements? {document : String} (written : Written maxDepth document ss) :
    let text := unifyBreaks (withoutMark document.toList)
    statements? (text.length + 1) text = some ss :=
  Lines.reads written _ (Nat.lt_succ_self _)

end Documents

end Countersign.Toml
