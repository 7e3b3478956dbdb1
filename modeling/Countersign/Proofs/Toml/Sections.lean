import Mathlib.Data.Nat.Notation
import Mathlib.Tactic.SplitIfs
import Countersign.Proofs.Toml.Lines
import Countersign.Toml.Document

/-!
# Documents read back

A document of sections gives one table for each section, with an entry for each of its settings, in the
order in which they were written. Two inductions carry this. One goes over the text and collects the
statements of its lines; it holds for whatever bound the reader is given. The other goes over those
statements and fills the table that was opened last.
-/

set_option autoImplicit false

namespace Countersign.Toml

section Reading

variable {c : Char} {cs text note : List Char} {s : Statement} {ss : List Statement}
  {name : String} {setting : Setting}

/-- A text has these statements, whatever bound of its length they are read with. -/
def Reads (cs : List Char) (ss : List Statement) : Prop := ∀ k, cs.length < k → statements? k cs = some ss

theorem reads_of_succ (h : ∀ k, cs.length ≤ k → statements? (k + 1) cs = some ss) : Reads cs ss := by
  intro k bound
  cases k with
  | zero => nomatch bound
  | succ k => exact h k (Nat.le_of_lt_succ bound)

theorem reads_nil : Reads [] [] := reads_of_succ fun _ _ => rfl

theorem Reads.emptyLine (later : Reads cs ss) : Reads ('\n' :: cs) ss :=
  reads_of_succ later

theorem Reads.comment (shown : ∀ c ∈ note, isLineChar c = true) (later : Reads cs ss) :
    Reads ('#' :: (note ++ '\n' :: cs)) ss := by
  refine reads_of_succ fun k bound => ?_
  have rest : withoutComment (skipBlanks ('#' :: (note ++ '\n' :: cs))) = '\n' :: cs :=
    dropWhile_stops shown rfl
  have line : lineEnd? ('#' :: (note ++ '\n' :: cs)) = some cs := by
    rw [lineEnd?, rest]
    rfl
  change (do statements? k (← lineEnd? ('#' :: (note ++ '\n' :: cs)))) = _
  rw [line]
  refine later k ?_
  simp only [List.length_cons, List.length_append] at bound
  omega

theorem Reads.statement (blank : isBlank c = false) (break' : c ≠ '\n') (hash : c ≠ '#')
    (read : statement? (c :: text) = some (s, cs)) (shorter : cs.length ≤ text.length)
    (later : Reads cs ss) : Reads (c :: text) (s :: ss) := by
  refine reads_of_succ fun k bound => ?_
  rw [statements?, skipBlanks_cons blank]
  split
  · rename_i h
    nomatch h
  · rename_i h
    exact absurd (List.cons.inj h).1 break'
  · rename_i h
    exact absurd (List.cons.inj h).1 hash
  · have := later k (by rw [List.length_cons] at bound; omega)
    rw [read]
    change ((statements? k cs).bind fun _ => _) = _
    rw [this]
    rfl

theorem Reads.line (bare : Bare name) (fits : setting.Fits) (later : Reads cs ss) :
    Reads (setting.line name ++ cs) (.entry [name] setting.value :: ss) := by
  obtain ⟨first, more, hn, head⟩ := bare.cons
  have read : statement? (setting.line name ++ cs) = some (.entry [name] setting.value, cs) :=
    statement?_line bare fits
  have text : setting.line name ++ cs =
      first :: (more ++ ' ' :: '=' :: ' ' :: (setting.chars ++ '\n' :: cs)) := by
    simp [Setting.line, hn]
  rw [text] at read ⊢
  refine later.statement (isBlank_of_isBareKeyChar head) (ne_of_class head rfl) (ne_of_class head rfl) read ?_
  simp only [List.length_append, List.length_cons]
  omega

theorem Reads.header (bare : Bare name) (later : Reads cs ss) :
    Reads ('[' :: (name.toList ++ ']' :: '\n' :: cs)) (.table [name] :: ss) := by
  refine later.statement rfl (by decide) (by decide) (statement?_header bare) ?_
  simp only [List.length_append, List.length_cons]
  omega

end Reading

/-- A section that is written without quoted names, without a name twice and without a number that is too
large. -/
structure Section.Fits (s : Section) : Prop where
  bare : Bare s.name
  settings : ∀ p ∈ s.settings, Bare p.1 ∧ p.2.Fits
  distinct : (s.settings.map Prod.fst).Nodup

namespace Section

variable {s : Section} {cs : List Char} {ss : List Statement}

def entries (s : Section) : Table := s.settings.map fun p => (p.1, p.2.value)

def statements (s : Section) : List Statement :=
  .table [s.name] :: s.settings.map fun p => .entry [p.1] p.2.value

def table (s : Section) : String × Value := (s.name, .table .explicit s.entries)

theorem reads (fits : s.Fits) (later : Reads cs ss) : Reads (s.chars ++ cs) (s.statements ++ ss) := by
  have lines (settings : List (String × Setting)) (all : ∀ p ∈ settings, Bare p.1 ∧ p.2.Fits) :
      Reads ((settings.flatMap fun p => p.2.line p.1) ++ cs)
        ((settings.map fun p => .entry [p.1] p.2.value) ++ ss) := by
    induction settings with
    | nil => exact later
    | cons p settings ih =>
      obtain ⟨bare, number⟩ := all p List.mem_cons_self
      rw [List.flatMap_cons, List.append_assoc]
      exact (ih fun q hq => all q (List.mem_cons_of_mem _ hq)).line bare number
  have text : s.chars ++ cs =
      '[' :: (s.name.toList ++ ']' :: '\n' :: ((s.settings.flatMap fun p => p.2.line p.1) ++ cs)) := by
    simp [chars]
  rw [text]
  exact (lines s.settings fits.settings).header fits.bare

theorem reads_all {sections : List Section} (fits : ∀ s ∈ sections, s.Fits) :
    Reads (sectionsChars sections) (sections.flatMap statements) := by
  fun_induction sectionsChars sections with
  | case1 => exact reads_nil
  | case2 s =>
    have := reads (fits s List.mem_cons_self) reads_nil
    rw [List.append_nil] at this
    rw [List.flatMap_singleton]
    simpa using this
  | case3 s r more ih =>
    rw [List.flatMap_cons]
    exact reads (fits s List.mem_cons_self) (ih fun t ht => fits t (List.mem_cons_of_mem _ ht)).emptyLine

end Section

section Filling

variable {t : Table} {name key : String} {v old new : Value} {entries : Table} {current : Path}

theorem lookup_eq_none (h : name ∉ t.map Prod.fst) : t.lookup name = none := by
  refine List.lookup_eq_none_iff.mpr fun p hp => bne_iff_ne.mpr ?_
  rintro rfl
  exact h (List.mem_map_of_mem hp)

theorem lookup_append_self (h : name ∉ t.map Prod.fst) : (t ++ [(name, v)]).lookup name = some v := by
  rw [List.lookup_append, lookup_eq_none h]
  simp

theorem replace_append_self (h : name ∉ t.map Prod.fst) :
    Table.replace (t ++ [(name, old)]) name new = t ++ [(name, new)] := by
  have kept : t.map (fun entry => if entry.1 = name then (name, new) else entry) = t := by
    refine (List.map_congr_left fun entry he => if_neg ?_).trans (List.map_id t)
    rintro rfl
    exact h (List.mem_map_of_mem he)
  rw [Table.replace, List.map_append, kept]
  simp

theorem step_header (h : name ∉ t.map Prod.fst) :
    Draft.step ⟨t, current⟩ (.table [name]) = some ⟨t ++ [(name, .table .explicit [])], [name]⟩ := by
  simp [Draft.step, Table.openTable, Table.update, lookup_eq_none h]

theorem step_entry (h : name ∉ t.map Prod.fst) (hk : key ∉ entries.map Prod.fst) :
    Draft.step ⟨t ++ [(name, .table .explicit entries)], [name]⟩ (.entry [key] v) =
      some ⟨t ++ [(name, .table .explicit (entries ++ [(key, v)]))], [name]⟩ := by
  have inserted : Table.insert entries [key] v = some (entries ++ [(key, v)]) := by
    simp [Table.insert, Table.add, lookup_eq_none hk]
  simp [Draft.step, Table.update, lookup_append_self h, inserted, replace_append_self h]

/-- The statements of a section fill a table of their own behind those that are there. -/
theorem foldlM_section {s : Section} (fits : s.Fits) (h : s.name ∉ t.map Prod.fst) :
    s.statements.foldlM Draft.step ⟨t, current⟩ = some ⟨t ++ [s.table], [s.name]⟩ := by
  have fill (settings : List (String × Setting)) (entries : Table)
      (distinct : (entries.map Prod.fst ++ settings.map Prod.fst).Nodup) :
      (settings.map fun p => Statement.entry [p.1] p.2.value).foldlM Draft.step
        ⟨t ++ [(s.name, .table .explicit entries)], [s.name]⟩ =
      some ⟨t ++ [(s.name, .table .explicit (entries ++ settings.map fun p => (p.1, p.2.value)))],
        [s.name]⟩ := by
    induction settings generalizing entries with
    | nil => simp
    | cons p settings ih =>
      have new : p.1 ∉ entries.map Prod.fst := fun hp =>
        (List.nodup_append.mp distinct).2.2 p.1 hp p.1 List.mem_cons_self rfl
      have later := ih (entries ++ [(p.1, p.2.value)]) (by simpa using distinct)
      rw [List.map_cons, List.foldlM_cons, step_entry h new]
      simpa using later
  have filled := fill s.settings [] fits.distinct
  rw [Section.statements, List.foldlM_cons, step_header h]
  exact filled

/-- Sections of different names are read as their tables. -/
theorem ofStatements?_sections {sections : List Section} (fits : ∀ s ∈ sections, s.Fits)
    (distinct : (sections.map Section.name).Nodup) :
    ofStatements? (sections.flatMap Section.statements) = some (sections.map Section.table) := by
  have fill (sections : List Section) (fits : ∀ s ∈ sections, s.Fits) (t : Table) (current : Path)
      (distinct : (t.map Prod.fst ++ sections.map Section.name).Nodup) :
      ((sections.flatMap Section.statements).foldlM Draft.step ⟨t, current⟩).map Draft.root =
        some (t ++ sections.map Section.table) := by
    induction sections generalizing t current with
    | nil => simp
    | cons s sections ih =>
      have new : s.name ∉ t.map Prod.fst := fun hs =>
        (List.nodup_append.mp distinct).2.2 s.name hs s.name List.mem_cons_self rfl
      have later := ih (fun r hr => fits r (List.mem_cons_of_mem _ hr)) (t ++ [s.table]) [s.name]
        (by simpa [Section.table] using distinct)
      rw [List.flatMap_cons, List.foldlM_append, foldlM_section (fits s List.mem_cons_self) new]
      simpa using later
  exact fill sections fits [] [] distinct

end Filling

section Parsing

variable {cs : List Char} {ss : List Statement}

theorem unifyBreaks_eq_self (h : '\r' ∉ cs) : unifyBreaks cs = cs := by
  fun_induction unifyBreaks cs with
  | case1 r ih => exact absurd List.mem_cons_self h
  | case2 c r other ih => rw [ih fun hr => h (List.mem_cons_of_mem _ hr)]
  | case3 => rfl

theorem parseChars?_of_reads (reads : Reads cs ss) (unmarked : cs.head? ≠ some '\ufeff')
    (breaks : '\r' ∉ cs) : parseChars? cs = ofStatements? ss := by
  have text : withoutMark cs = cs := by
    unfold withoutMark
    split
    · exact absurd rfl unmarked
    · rfl
  rw [parseChars?, text, unifyBreaks_eq_self breaks, reads _ (Nat.lt_succ_self _)]
  rfl

theorem Setting.cr_not_mem_line {name : String} (bare : Bare name) (setting : Setting) :
    '\r' ∉ setting.line name := by
  have value : '\r' ∉ setting.chars := by
    intro h
    cases setting with
    | text s =>
      rcases isLineChar_of_mem_write (TextForm.shows_choose s.toList) h with h | h
      · exact absurd h (by decide)
      · exact absurd h (by decide)
    | number n =>
      rw [Setting.chars, toList_toString] at h
      exact absurd (isDigit_of_mem_toDigits h) (by decide)
  have key : '\r' ∉ name.toList := fun h => absurd (bare.2 _ h) (by decide)
  simp [Setting.line, value, key]

theorem cr_not_mem_sectionsChars {sections : List Section} (fits : ∀ s ∈ sections, s.Fits) :
    '\r' ∉ sectionsChars sections := by
  have part {s : Section} (fits : s.Fits) : '\r' ∉ s.chars := by
    have key : '\r' ∉ s.name.toList := fun h => absurd (fits.bare.2 _ h) (by decide)
    have lines : '\r' ∉ s.settings.flatMap fun p => p.2.line p.1 := by
      intro h
      obtain ⟨p, hp, hl⟩ := List.mem_flatMap.mp h
      exact p.2.cr_not_mem_line (fits.settings p hp).1 hl
    simpa [Section.chars, key] using lines
  fun_induction sectionsChars sections with
  | case1 => exact List.not_mem_nil
  | case2 s => exact part (fits s List.mem_cons_self)
  | case3 s r more ih =>
    have later := ih fun t ht => fits t (List.mem_cons_of_mem _ ht)
    simp [part (fits s List.mem_cons_self), later]

end Parsing

end Countersign.Toml
