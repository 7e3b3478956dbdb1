import Mathlib.Data.List.Infix
import Countersign.Proofs.Toml.Holdings
import Countersign.Proofs.Toml.Spelling

/-!
# Documents without a clash

Names may be spread over headers, dotted keys and tables written as values, but not at will. A table is named
by one header, nothing is added to what an entry wrote, and the tables that dotted keys make belong to the
table in which the keys stand. A new element of an array of tables starts afresh what was said behind it.
These rules compare statements by their paths alone. A document that keeps them is never refused: whatever
stands at an address has its origin in a statement, and the rules keep that statement and the next one apart.
-/

set_option autoImplicit false

namespace Countersign.Toml

section Rules

/-- What a statement says by its path: a header, or an entry of the table that was opened last. -/
inductive Definition where
  | header (repeated : Bool) (path : Path)
  | entry (table key : Path)
  deriving DecidableEq

/-- After the first definition there is room for the second. -/
def Apart : Definition → Definition → Prop
  | .header _ p, .header false q => p ≠ q
  | .header repeated p, .header true q => q <+: p → repeated = true ∧ p = q
  | .header _ p, .entry table key => ¬table ++ key.take 1 <+: p
  | .entry table key, .header _ q => ¬table ++ key <+: q ∧ (table <+: q → q <+: table ++ key → q = table)
  | .entry table key, .entry table' key' => ¬table ++ key <+: table' ++ key' ∧ ¬table' ++ key' <+: table ++ key

/-- What a new element of an array of tables starts afresh. -/
def Definition.Within (q : Path) : Definition → Prop
  | .header _ path => q <+: path
  | .entry table _ => q <+: table

instance : ∀ e e', Decidable (Apart e e')
  | .header _ p, .header false q => inferInstanceAs (Decidable (p ≠ q))
  | .header repeated p, .header true q => inferInstanceAs (Decidable (q <+: p → repeated = true ∧ p = q))
  | .header _ p, .entry table key => inferInstanceAs (Decidable ¬table ++ key.take 1 <+: p)
  | .entry table key, .header _ q =>
    inferInstanceAs (Decidable (¬table ++ key <+: q ∧ (table <+: q → q <+: table ++ key → q = table)))
  | .entry table key, .entry table' key' =>
    inferInstanceAs (Decidable (¬table ++ key <+: table' ++ key' ∧ ¬table' ++ key' <+: table ++ key))

instance (q : Path) : ∀ e : Definition, Decidable (e.Within q)
  | .header _ path => inferInstanceAs (Decidable (q <+: path))
  | .entry table _ => inferInstanceAs (Decidable (q <+: table))

namespace Statement

def define (current : Path) (defs : List Definition) : Statement → List Definition
  | .table path => .header false path :: defs
  | .element path => .header true path :: defs.filter fun e => ¬e.Within path
  | .entry key _ => .entry current key :: defs

def Fits (current : Path) (defs : List Definition) : Statement → Prop
  | .table path => path ≠ [] ∧ ∀ e ∈ defs, Apart e (.header false path)
  | .element path => path ≠ [] ∧ (.header true path ∈ defs ∨ ∀ e ∈ defs, Apart e (.header true path))
  | .entry key _ => key ≠ [] ∧ ∀ e ∈ defs, Apart e (.entry current key)

instance (current : Path) (defs : List Definition) : ∀ s : Statement, Decidable (s.Fits current defs)
  | .table path => inferInstanceAs (Decidable (path ≠ [] ∧ ∀ e ∈ defs, Apart e (.header false path)))
  | .element path =>
    inferInstanceAs (Decidable (path ≠ [] ∧ (.header true path ∈ defs ∨ ∀ e ∈ defs, Apart e (.header true path))))
  | .entry key _ => inferInstanceAs (Decidable (key ≠ [] ∧ ∀ e ∈ defs, Apart e (.entry current key)))

end Statement

/-- Each statement fits after those before it. -/
def Coherent : Path → List Definition → List Statement → Prop
  | _, _, [] => True
  | current, defs, s :: ss => s.Fits current defs ∧ Coherent (s.opened current) (s.define current defs) ss

instance decidableCoherent : ∀ current defs ss, Decidable (Coherent current defs ss)
  | _, _, [] => isTrue trivial
  | current, defs, s :: ss =>
    have := decidableCoherent (s.opened current) (s.define current defs) ss
    inferInstanceAs (Decidable (s.Fits current defs ∧ Coherent (s.opened current) (s.define current defs) ss))

end Rules

section Room

variable {byKey : Bool} {change : TableForm → Table → Option Table} {t : Table} {path key : Path}
  {form : TableForm} {v : Value}

/-- A path can lead on through what stands here. -/
inductive Admits (byKey : Bool) : Option Value → Prop where
  | none : Admits byKey none
  | table {form : TableForm} {entries : Table} (extends' : form ≠ .closed) (keyed : byKey = true → form = .dotted) :
    Admits byKey (some (.table form entries))
  | array {elements : List Table} (some' : elements ≠ []) (header : byKey = false) :
    Admits byKey (some (.tables elements))

theorem exists_update (admits : ∀ way, way ≠ [] → way <+: path → Admits byKey (t.at? way))
    (changes : ∀ form' target, (∀ a, a ≠ [] → Table.at? target a = t.at? (path ++ a)) →
      (byKey = true → form' = .dotted ∨ path = [] ∧ form' = form) →
      ∃ target', change form' target = some target') :
    ∃ t', t.update byKey change path form = some t' := by
  induction path generalizing t form with
  | nil => exact changes form t (fun _ _ => rfl) fun _ => .inr ⟨rfl, rfl⟩
  | cons name rest ih =>
    have here := admits [name] (List.cons_ne_nil _ _) (List.cons_prefix_cons.mpr ⟨rfl, List.nil_prefix⟩)
    -- The rest of the path is followed in one table, of which the hypotheses hold again.
    have onward (inner : Table) (form' : TableForm) (view : ∀ a, a ≠ [] → inner.at? a = t.at? (name :: a))
        (formed : byKey = true → form' = .dotted) :
        ∃ inner', inner.update byKey change rest form' = some inner' := by
      refine ih (fun way named on => ?_) fun form'' target below formed' => ?_
      · rw [view way named]
        exact admits (name :: way) (List.cons_ne_nil _ _) (List.cons_prefix_cons.mpr ⟨rfl, on⟩)
      · refine changes form'' target (fun a ha => ?_) fun h => ?_
        · exact (below a ha).trans (view (rest ++ a) (List.append_ne_nil_of_right_ne_nil rest ha))
        · rcases formed' h with dotted | ⟨-, same⟩
          · exact .inl dotted
          · exact .inl (same.trans (formed h))
    rw [Table.at?_singleton] at here
    rw [Table.update]
    generalize stands : t.lookup name = old at here
    cases here with
    | none =>
      have view a (ha : a ≠ []) : Table.at? [] a = t.at? (name :: a) := by
        rw [at?_empty ha, Table.at?_cons, stands]
        rfl
      obtain ⟨inner, made⟩ := onward [] (madeForm byKey) view fun h => if_pos h
      exact ⟨_, Option.bind_eq_some_iff.mpr ⟨inner, made, rfl⟩⟩
    | @table form entries extends' keyed =>
      have view a (ha : a ≠ []) : entries.at? a = t.at? (name :: a) := by
        rw [Table.at?_cons, stands]
        exact (Value.at?_table ha).symm
      obtain ⟨inner, made⟩ := onward entries form view keyed
      have closed : ¬(form = .closed ∨ (byKey = true ∧ form = .explicit)) := by
        rintro (h | ⟨h, h'⟩)
        · exact extends' h
        · exact absurd (h'.symm.trans (keyed h)) (by decide)
      exact ⟨_, (if_neg closed).trans (Option.bind_eq_some_iff.mpr ⟨inner, made, rfl⟩)⟩
    | @array elements some' header =>
      have last := List.getLast?_eq_some_getLast some'
      have view a (ha : a ≠ []) : Table.at? (elements.getLast some') a = t.at? (name :: a) := by
        rw [Table.at?_cons, stands]
        exact (Value.at?_tables last ha).symm
      obtain ⟨inner, made⟩ := onward _ .explicit view fun h => absurd (header.symm.trans h) Bool.false_ne_true
      dsimp only
      rw [last]
      exact ⟨_, Option.bind_eq_some_iff.mpr ⟨inner, made, rfl⟩⟩

theorem exists_add {name : String} (free : t.lookup name = none) : ∃ t', t.add name v = some t' := by
  refine ⟨_, if_neg ?_⟩
  rw [free]
  exact Bool.false_ne_true

theorem exists_insert (named : key ≠ []) (free : t.at? key = none)
    (ways : ∀ way, way ≠ [] → way <+: key.dropLast → Admits true (t.at? way)) :
    ∃ t', t.insert key v = some t' := by
  obtain ⟨parents, name, rfl⟩ := List.eq_nil_or_concat' key |>.resolve_left named
  rw [List.dropLast_concat] at ways
  unfold Table.insert
  rw [List.getLast?_concat, List.dropLast_concat]
  dsimp only
  split
  · exact exists_add (Table.at?_singleton ▸ free)
  · rename_i inner
    refine exists_update ways fun form target view formed => ?_
    have dotted := (formed rfl).resolve_right fun h => inner h.1
    rw [if_pos dotted]
    exact exists_add (Table.at?_singleton ▸ (view [name] (List.cons_ne_nil _ _)).trans free)

theorem exists_open {change : Table → Option Table} (parents : Path) (name : String)
    (ways : ∀ way, way ≠ [] → way <+: parents → Admits false (t.at? way))
    (opens : ∀ target : Table, target.lookup name = t.at? (parents ++ [name]) →
      ∃ target', change target = some target') :
    ∃ t', t.update false (fun _ => change) parents .explicit = some t' := by
  refine exists_update ways fun form target view _ => opens target ?_
  rw [← view [name] (List.cons_ne_nil _ _), Table.at?_singleton]

theorem exists_openTable (named : path ≠ [])
    (ways : ∀ way, way ≠ [] → way <+: path.dropLast → Admits false (t.at? way))
    (room : t.at? path = none ∨ ∃ entries, t.at? path = some (.table .implied entries)) :
    ∃ t', t.openTable path = some t' := by
  obtain ⟨parents, name, rfl⟩ := List.eq_nil_or_concat' path |>.resolve_left named
  rw [List.dropLast_concat] at ways
  unfold Table.openTable
  rw [List.getLast?_concat, List.dropLast_concat]
  refine exists_open parents name ways fun target here => ?_
  rw [here]
  rcases room with free | ⟨entries, implied⟩
  · rw [free]
    exact ⟨_, rfl⟩
  · rw [implied]
    exact ⟨_, rfl⟩

theorem exists_openElement (named : path ≠ [])
    (ways : ∀ way, way ≠ [] → way <+: path.dropLast → Admits false (t.at? way))
    (room : t.at? path = none ∨ ∃ elements, t.at? path = some (.tables elements)) :
    ∃ t', t.openElement path = some t' := by
  obtain ⟨parents, name, rfl⟩ := List.eq_nil_or_concat' path |>.resolve_left named
  rw [List.dropLast_concat] at ways
  unfold Table.openElement
  rw [List.getLast?_concat, List.dropLast_concat]
  refine exists_open parents name ways fun target here => ?_
  rw [here]
  rcases room with free | ⟨elements, array⟩
  · rw [free]
    exact ⟨_, rfl⟩
  · rw [array]
    exact ⟨_, rfl⟩

end Room

section Origins

variable {byKey : Bool} {defs : List Definition} {address path q : Path} {current : Path} {s : Statement}
  {old : Option Value} {v : Value}

/-- The statement to which a value owes that it stands at an address. -/
inductive Origin (defs : List Definition) (address : Path) : Value → Prop where
  | written {table key : Path} {v : Value} (h : .entry table key ∈ defs) (behind : table ++ key <+: address) :
    Origin defs address v
  | named {entries : Table} (h : .header false address ∈ defs) : Origin defs address (.table .explicit entries)
  | repeated {elements : List Table} (h : .header true address ∈ defs) (some' : elements ≠ []) :
    Origin defs address (.tables elements)
  | implied {repeated : Bool} {path : Path} {entries : Table} (h : .header repeated path ∈ defs)
    (on : address <+: path.dropLast) : Origin defs address (.table .implied entries)
  | dotted {table key part : Path} {entries : Table} (h : .entry table key ∈ defs) (here : address = table ++ part)
    (some' : part ≠ []) (on : part <+: key.dropLast) : Origin defs address (.table .dotted entries)

theorem Origin.admits (origin : Origin defs address v)
    (free : ∀ table key, .entry table key ∈ defs → ¬table ++ key <+: address) : Admits false (some v) := by
  cases origin with
  | written h behind => exact absurd behind (free _ _ h)
  | named | implied | dotted => exact .table nofun nofun
  | repeated _ some' => exact .array some' rfl

theorem Origin.passed (origin : ∀ w, old = some w → Origin defs address w) (passed : Passed byKey old (some v))
    (made : ∀ entries, old = none → Origin defs address (.table (madeForm byKey) entries)) :
    Origin defs address v := by
  cases passed with
  | made entries => exact made entries rfl
  | kept _ before after =>
    cases origin _ rfl with
    | written h behind => exact .written h behind
    | named h => exact .named h
    | implied h on => exact .implied h on
    | dotted h here some' on => exact .dotted h here some' on
  | array before after =>
    cases origin _ rfl with
    | written h behind => exact .written h behind
    | repeated h => exact .repeated h (List.concat_ne_nil _ _)

theorem prefix_dropLast (on : address <+: path) (before : ¬path <+: address) : address <+: path.dropLast := by
  obtain ⟨rest, rfl⟩ := on
  cases rest using List.reverseRecOn with
  | nil => exact absurd (by simp) before
  | append_singleton rest name => rw [← List.append_assoc, List.dropLast_concat]; exact List.prefix_append _ _

/-- Outside the array of tables to which a header adds an element, what has an origin keeps one. -/
theorem Origin.define (origin : Origin defs address v) (outside : ∀ q, s = .element q → ¬q <+: address) :
    Origin (s.define current defs) address v := by
  have keep {e : Definition} (h : e ∈ defs) (within : ∀ q, s = .element q → ¬e.Within q) :
      e ∈ s.define current defs := by
    cases s with
    | table path | entry key v => exact List.mem_cons_of_mem _ h
    | element path => exact List.mem_cons_of_mem _ (List.mem_filter.mpr ⟨h, by simpa using within path rfl⟩)
  cases origin with
  | @written table key _ h behind =>
    have outer {q : Path} (within : q <+: table) : q <+: address :=
      within.trans ((List.prefix_append _ _).trans behind)
    exact .written (keep h fun q hs within => outside q hs (outer within)) behind
  | named h => exact .named (keep h outside)
  | repeated h some' => exact .repeated (keep h outside) some'
  | @implied repeated path _ h on =>
    have onto := on.trans (List.dropLast_prefix path)
    by_cases within : ∃ q, s = .element q ∧ q <+: path
    · obtain ⟨q, rfl, below⟩ := within
      -- The way to a table behind the array is the way to the array.
      rcases List.prefix_or_prefix_of_prefix onto below with before | behind
      · exact .implied List.mem_cons_self (prefix_dropLast before (outside q rfl))
      · exact absurd behind (outside q rfl)
    · exact .implied (keep h fun q hs below => within ⟨q, hs, below⟩) on
  | @dotted table _ _ _ h here some' on =>
    have outer {q : Path} (within : q <+: table) : q <+: address := here ▸ within.trans (List.prefix_append _ _)
    exact .dotted (keep h fun q hs within => outside q hs (outer within)) here some' on

end Origins

section Steps

variable {byKey repeated : Bool} {defs : List Definition} {current way path part key table : Path} {d d' : Draft}
  {s : Statement} {old new : Option Value} {v : Value}

def Leads (v : Option Value) : Prop := ∃ w, v = some w ∧ Admits false (some w)

theorem Passed.leads (passed : Passed byKey old new) : Leads new := by
  cases passed with
  | made entries => exact ⟨_, rfl, .table (by cases byKey <;> nofun) nofun⟩
  | kept extends' => exact ⟨_, rfl, .table extends' nofun⟩
  | array => exact ⟨_, rfl, .array (List.concat_ne_nil _ _) rfl⟩

theorem Opening.leads (opening : Opening repeated old v) : Leads (some v) := by
  cases opening with
  | table | implied => exact ⟨_, rfl, .table nofun nofun⟩
  | element => exact ⟨_, rfl, .array (List.cons_ne_nil _ _) rfl⟩
  | further => exact ⟨_, rfl, .array (List.concat_ne_nil _ _) rfl⟩

/-- What the definitions that count say about a draft. -/
structure Accounted (defs : List Definition) (d : Draft) : Prop where
  origin : ∀ address v, address ≠ [] → d.root.at? address = some v → Origin defs address v
  leads : ∀ repeated path, .header repeated path ∈ defs →
    ∀ way, way ≠ [] → way <+: path → Leads (d.root.at? way)
  arrays : ∀ path, .header true path ∈ defs → ∃ elements, d.root.at? path = some (.tables elements)
  opened : d.current = [] ∨ ∃ repeated, .header repeated d.current ∈ defs

theorem Accounted.empty : Accounted [] Draft.empty where
  origin _ _ named h := nomatch (at?_empty named).symm.trans h
  leads _ _ h := nomatch h
  arrays _ h := nomatch h
  opened := .inl rfl

theorem not_dotted (apart : Apart (.entry table key) (.header repeated path)) (here : path = table ++ part)
    (some' : part ≠ []) (on : part <+: key.dropLast) : False := by
  subst here
  have same := apart.2 (List.prefix_append _ _)
    ((List.prefix_append_right_inj table).mpr (on.trans (List.dropLast_prefix key)))
  exact some' (by simpa using same)

section Progress

variable (accounted : Accounted defs d)

include accounted

theorem Accounted.admits (free : ∀ table key, .entry table key ∈ defs → ¬table ++ key <+: path)
    (named : way ≠ []) (on : way <+: path.dropLast) : Admits false (d.root.at? way) := by
  cases stands : d.root.at? way with
  | none => exact .none
  | some v =>
    refine (accounted.origin way v named stands).admits fun table key h behind => free table key h ?_
    exact behind.trans (on.trans (List.dropLast_prefix path))

theorem Accounted.exists_table (fits : (Statement.table path).Fits d.current defs) :
    ∃ d', d.step (.table path) = some d' := by
  obtain ⟨named, apart⟩ := fits
  have free table key (h : .entry table key ∈ defs) : ¬table ++ key <+: path := (apart (.entry ..) h).1
  have room : d.root.at? path = none ∨ ∃ entries, d.root.at? path = some (.table .implied entries) := by
    cases stands : d.root.at? path with
    | none => exact .inl rfl
    | some v =>
      cases accounted.origin path v named stands with
      | written h behind => exact absurd behind (free _ _ h)
      | named h | repeated h => exact absurd rfl (apart _ h)
      | implied => exact .inr ⟨_, rfl⟩
      | dotted h here some' on => exact (not_dotted (apart _ h) here some' on).elim
  obtain ⟨root, opened⟩ := exists_openTable named (fun _ named on => accounted.admits free named on) room
  exact ⟨⟨root, path⟩, Option.map_eq_some_iff.mpr ⟨root, opened, rfl⟩⟩

theorem Accounted.exists_element (fits : (Statement.element path).Fits d.current defs) :
    ∃ d', d.step (.element path) = some d' := by
  obtain ⟨named, again | apart⟩ := fits
  · have ways way (named : way ≠ []) (on : way <+: path.dropLast) : Admits false (d.root.at? way) := by
      obtain ⟨v, stands, admits⟩ := accounted.leads _ _ again way named (on.trans (List.dropLast_prefix path))
      exact stands ▸ admits
    obtain ⟨root, opened⟩ := exists_openElement named ways (.inr (accounted.arrays path again))
    exact ⟨⟨root, path⟩, Option.map_eq_some_iff.mpr ⟨root, opened, rfl⟩⟩
  · have free table key (h : .entry table key ∈ defs) : ¬table ++ key <+: path := (apart (.entry ..) h).1
    have room : d.root.at? path = none ∨ ∃ elements, d.root.at? path = some (.tables elements) := by
      cases stands : d.root.at? path with
      | none => exact .inl rfl
      | some v =>
        cases accounted.origin path v named stands with
        | written h behind => exact absurd behind (free _ _ h)
        | named h => nomatch (apart _ h List.prefix_rfl).1
        | repeated => exact .inr ⟨_, rfl⟩
        | @implied _ longer _ h on =>
          obtain ⟨-, rfl⟩ := apart _ h (on.trans (List.dropLast_prefix longer))
          have shorter := on.length_le
          have := List.length_pos_iff.mpr named
          simp only [List.length_dropLast] at shorter
          omega
        | dotted h here some' on => exact (not_dotted (apart _ h) here some' on).elim
    obtain ⟨root, opened⟩ := exists_openElement named (fun _ named on => accounted.admits free named on) room
    exact ⟨⟨root, path⟩, Option.map_eq_some_iff.mpr ⟨root, opened, rfl⟩⟩

theorem Accounted.exists_entry (fits : (Statement.entry key v).Fits d.current defs) :
    ∃ d', d.step (.entry key v) = some d' := by
  obtain ⟨named, apart⟩ := fits
  have ways way (named : way ≠ []) (on : way <+: d.current) : Admits false (d.root.at? way) := by
    rcases accounted.opened with root | ⟨repeated, h⟩
    · rw [root] at on
      exact absurd (List.prefix_nil.mp on) named
    · obtain ⟨v, stands, admits⟩ := accounted.leads _ _ h way named on
      exact stands ▸ admits
  -- Only other dotted keys can have left something on the way of this one.
  have standing part w (some' : part ≠ []) (on : part <+: key) (stands : d.root.at? (d.current ++ part) = some w) :
      part ≠ key ∧ ∃ entries, w = .table .dotted entries := by
    have first : d.current ++ key.take 1 <+: d.current ++ part := by
      refine (List.prefix_append_right_inj _).mpr ?_
      obtain ⟨rest, rfl⟩ := on
      cases part with
      | nil => exact absurd rfl some'
      | cons name part => exact List.cons_prefix_cons.mpr ⟨rfl, by simp⟩
    cases accounted.origin _ w (List.append_ne_nil_of_right_ne_nil _ some') stands with
    | written h behind => exact absurd (behind.trans ((List.prefix_append_right_inj _).mpr on)) (apart _ h).1
    | named h | repeated h => exact absurd first (apart _ h)
    | @implied _ path _ h on => exact absurd (first.trans (on.trans (List.dropLast_prefix path))) (apart _ h)
    | @dotted table key' part' entries h here _ on' =>
      refine ⟨?_, entries, rfl⟩
      rintro rfl
      refine (apart _ h).2 ?_
      rw [here]
      exact (List.prefix_append_right_inj _).mpr (on'.trans (List.dropLast_prefix key'))
  have entered : ∃ root, d.root.update false (fun _ t => t.insert key v) d.current .explicit = some root := by
    refine exists_update ways fun form target view _ => exists_insert named ?_ fun part some' on => ?_
    · rw [view key named]
      by_contra taken
      obtain ⟨w, stands⟩ := Option.ne_none_iff_exists'.mp taken
      exact (standing key w named List.prefix_rfl stands).1 rfl
    · rw [view part some']
      cases stands : d.root.at? (d.current ++ part) with
      | none => exact .none
      | some w =>
        obtain ⟨-, entries, rfl⟩ := standing part w some' (on.trans (List.dropLast_prefix key)) stands
        exact .table nofun fun _ => rfl
  obtain ⟨root, entered⟩ := entered
  exact ⟨{ d with root }, Option.map_eq_some_iff.mpr ⟨root, entered, rfl⟩⟩

theorem Accounted.exists_step (fits : s.Fits d.current defs) : ∃ d', d.step s = some d' := by
  cases s with
  | table path => exact accounted.exists_table fits
  | element path => exact accounted.exists_element fits
  | entry key v => exact accounted.exists_entry fits

end Progress

theorem opens_header (h : d.step (.header repeated path) = some d') (named : way ≠ []) :
    Opens repeated path d.root d'.root way := by
  cases repeated with
  | false => exact opens_table h named
  | true => exact opens_element h named

theorem leads_step (h : d.step s = some d') (named : way ≠ []) (outside : ∀ q, s = .element q → ¬q <+: way)
    (leads : Leads (d.root.at? way)) : Leads (d'.root.at? way) := by
  rcases step_seen h named with ⟨repeated, path, rfl, opens⟩ | ⟨key, v, rfl, enters⟩
  · cases opens with
    | same _ _ same => rwa [same]
    | passed _ passed => exact passed.leads
    | opened _ opening after => exact after ▸ opening.leads
    | emptied added _ behind =>
      subst added behind
      exact absurd (List.prefix_append _ _) (outside path rfl)
  · cases enters with
    | same _ same => rwa [same]
    | passed _ passed | keyed _ _ _ passed => exact passed.leads
    | entry _ before =>
      obtain ⟨w, stands, -⟩ := leads
      nomatch before.symm.trans stands

theorem leads_opened (h : d.step (.header repeated path) = some d') (named : way ≠ []) (on : way <+: path) :
    Leads (d'.root.at? way) := by
  cases opens_header h named with
  | same off => exact absurd on off
  | passed _ passed => exact passed.leads
  | opened _ opening after => exact after ▸ opening.leads
  | emptied _ _ behind some' =>
    subst behind
    have shorter := on.length_le
    have := List.length_pos_iff.mpr some'
    rw [List.length_append] at shorter
    omega

theorem arrays_step {elements : List Table} (h : d.step s = some d') (outside : ∀ q, s = .element q → ¬q <+: path)
    (stands : d.root.at? path = some (.tables elements)) :
    ∃ elements, d'.root.at? path = some (.tables elements) := by
  have named : path ≠ [] := by
    rintro rfl
    nomatch stands
  have stays {byKey : Bool} (passed : Passed byKey (d.root.at? path) (d'.root.at? path)) :
      ∃ elements, d'.root.at? path = some (.tables elements) := by
    rw [stands] at passed
    generalize d'.root.at? path = new at passed
    cases passed with
    | array => exact ⟨_, rfl⟩
  rcases step_seen h named with ⟨repeated, path', rfl, opens⟩ | ⟨key, v, rfl, enters⟩
  · cases opens with
    | same _ _ same => exact ⟨elements, same.trans stands⟩
    | passed _ passed => exact stays passed
    | opened _ opening after =>
      rw [stands] at opening
      cases opening with
      | further => exact ⟨_, after⟩
    | emptied added _ behind =>
      subst added behind
      exact absurd (List.prefix_append _ _) (outside path' rfl)
  · cases enters with
    | same _ same => exact ⟨elements, same.trans stands⟩
    | passed _ passed | keyed _ _ _ passed => exact stays passed
    | entry _ before => nomatch before.symm.trans stands

theorem arrays_opened (h : d.step (.element path) = some d') (named : path ≠ []) :
    ∃ elements, d'.root.at? path = some (.tables elements) := by
  cases opens_element h named with
  | same off => exact absurd List.prefix_rfl off
  | passed on =>
    have shorter := on.length_le
    have := List.length_pos_iff.mpr named
    rw [List.length_dropLast] at shorter
    omega
  | opened _ opening after =>
    generalize d.root.at? path = old at opening
    cases opening with
    | element | further => exact ⟨_, after⟩
  | emptied _ _ behind some' => exact absurd (List.append_right_eq_self.mp behind.symm) some'

theorem origin_step {address : Path} (accounted : Accounted defs d) (h : d.step s = some d') (named : address ≠ [])
    (stands : d'.root.at? address = some v) : Origin (s.define d.current defs) address v := by
  have before (outside : ∀ q, s = .element q → ¬q <+: address) (w : Value) (h : d.root.at? address = some w) :
      Origin (s.define d.current defs) address w := (accounted.origin address w named h).define outside
  rcases step_seen h named with ⟨repeated, path, rfl, opens⟩ | ⟨key, w, rfl, enters⟩
  · have head : .header repeated path ∈ (Statement.header repeated path).define d.current defs := by
      cases repeated <;> exact List.mem_cons_self
    have outside (shut : repeated = true → ¬path <+: address) q (hq : Statement.header repeated path = .element q) :
        ¬q <+: address := by
      cases repeated with
      | false => nomatch hq
      | true =>
        obtain rfl := Statement.element.inj hq
        exact shut rfl
    cases opens with
    | same _ kept same => exact before (outside kept) v (same ▸ stands)
    | passed on passed =>
      rw [stands] at passed
      refine Origin.passed (before (outside fun _ behind => ?_)) passed fun entries _ => .implied head on
      have shorter := (behind.trans on).length_le
      have := List.length_pos_iff.mpr (mt (· ▸ on) (by simpa using named) : path ≠ [])
      rw [List.length_dropLast] at shorter
      omega
    | opened here opening after =>
      obtain rfl := Option.some.inj (after.symm.trans stands)
      subst here
      generalize d.root.at? address = old at opening
      cases opening with
      | table | implied => exact .named head
      | element => exact .repeated head (List.cons_ne_nil _ _)
      | further => exact .repeated head (List.concat_ne_nil _ _)
    | emptied _ _ _ _ after => nomatch after.symm.trans stands
  · have head : .entry d.current key ∈ (Statement.entry key w).define d.current defs := List.mem_cons_self
    have before := before nofun
    cases enters with
    | same _ same => exact before v (same ▸ stands)
    | passed on passed =>
      rw [stands] at passed
      refine Origin.passed before passed fun entries absent => ?_
      rcases accounted.opened with root | ⟨repeated, h⟩
      · rw [root] at on
        exact absurd (List.prefix_nil.mp on) named
      · obtain ⟨w, present, -⟩ := accounted.leads _ _ h address named on
        nomatch absent.symm.trans present
    | keyed here some' on passed =>
      rw [stands] at passed
      exact Origin.passed before passed fun entries _ => .dotted head here some' on
    | entry here => exact .written head (here ▸ List.prefix_append _ _)

theorem mem_define {e : Definition} (h : e ∈ s.define current defs) :
    (e ∈ defs ∧ ∀ q, s = .element q → ¬e.Within q) ∨ (∃ repeated path, s = .header repeated path ∧
      e = .header repeated path) ∨ ∃ key v, s = .entry key v ∧ e = .entry current key := by
  cases s with
  | table path =>
    rcases List.mem_cons.mp h with rfl | h
    · exact .inr (.inl ⟨false, path, rfl, rfl⟩)
    · exact .inl ⟨h, nofun⟩
  | element path =>
    rcases List.mem_cons.mp h with rfl | h
    · exact .inr (.inl ⟨true, path, rfl, rfl⟩)
    · obtain ⟨h, outside⟩ := List.mem_filter.mp h
      refine .inl ⟨h, fun q hq => ?_⟩
      obtain rfl := Statement.element.inj hq
      exact of_decide_eq_true outside
  | entry key v =>
    rcases List.mem_cons.mp h with rfl | h
    · exact .inr (.inr ⟨key, v, rfl, rfl⟩)
    · exact .inl ⟨h, nofun⟩

theorem Accounted.step (accounted : Accounted defs d) (fits : s.Fits d.current defs) (h : d.step s = some d') :
    Accounted (s.define d.current defs) d' where
  origin _ _ named stands := origin_step accounted h named stands
  leads repeated path defined way named on := by
    rcases mem_define defined with ⟨defined, outside⟩ | ⟨repeated', path', rfl, same⟩ | ⟨_, _, _, same⟩
    · refine leads_step h named (fun q hq behind => outside q hq (behind.trans on)) ?_
      exact accounted.leads repeated path defined way named on
    · obtain ⟨rfl, rfl⟩ := Definition.header.inj same
      exact leads_opened h named on
    · nomatch same
  arrays path defined := by
    rcases mem_define defined with ⟨defined, outside⟩ | ⟨repeated', path', rfl, same⟩ | ⟨_, _, _, same⟩
    · obtain ⟨elements, stands⟩ := accounted.arrays path defined
      exact arrays_step h outside stands
    · obtain ⟨rfl, rfl⟩ := Definition.header.inj same
      exact arrays_opened h fits.1
    · nomatch same
  opened := by
    rw [current_step h]
    cases s with
    | table path => exact .inr ⟨false, List.mem_cons_self⟩
    | element path => exact .inr ⟨true, List.mem_cons_self⟩
    | entry key v => exact accounted.opened.imp_right fun ⟨repeated, h⟩ => ⟨repeated, List.mem_cons_of_mem _ h⟩

end Steps

theorem exists_coherent_run {defs : List Definition} {d : Draft} {ss : List Statement} (accounted : Accounted defs d)
    (coherent : Coherent d.current defs ss) : ∃ d', ss.foldlM Draft.step d = some d' := by
  induction ss generalizing d defs with
  | nil => exact ⟨d, rfl⟩
  | cons s ss ih =>
    obtain ⟨fits, later⟩ := coherent
    obtain ⟨next, first⟩ := accounted.exists_step fits
    obtain ⟨d', rest⟩ := ih (accounted.step fits first) (current_step first ▸ later)
    exact ⟨d', Option.bind_eq_some_iff.mpr ⟨next, first, rest⟩⟩

/-- Statements of which none clashes with another make a document. -/
theorem exists_document {ss : List Statement} (coherent : Coherent [] [] ss) :
    ∃ root, ofStatements? ss = some root := by
  obtain ⟨d, run⟩ := exists_coherent_run Accounted.empty coherent
  exact ⟨d.root, Option.map_eq_some_iff.mpr ⟨d, run, rfl⟩⟩

example : Coherent [] []
    [.entry ["a", "b"] (.integer 1), .entry ["a", "c"] (.integer 2), .table ["a", "d"], .element ["e"],
      .table ["e", "f"], .element ["e"], .table ["e", "f"]] := by decide

example : ¬Coherent [] [] [.entry ["a", "b"] (.integer 1), .table ["a"]] := by decide

def IsDocument (text : String) (ss : List Statement) : Prop :=
  let cs := unifyBreaks (withoutMark text.toList)
  statements? (cs.length + 1) cs = some ss ∧ ∃ root, ofStatements? ss = some root

theorem Written.isDocument {text : String} {ss : List Statement} (written : Written maxDepth text ss)
    (coherent : Coherent [] [] ss) : IsDocument text ss :=
  ⟨written.statements?, exists_document coherent⟩

end Countersign.Toml
