import Mathlib.Data.Nat.Notation
import Mathlib.Tactic.SplitIfs
import Countersign.Toml.Document

/-!
# What stands at an address

A key of a table, a key of the table that stands there, and so on: that is an address. In an array of tables
it goes on in the last element, as a path does. A change of a table that a path leads to is seen nowhere but
at the addresses on the way to it, where tables are made or kept as the kind of table they are, and at those
behind it, where the change itself is seen.
-/

set_option autoImplicit false

namespace Countersign.Toml

/-- What stands under a name of a table, or of the last element of an array of tables. -/
def Value.entry? (name : String) : Value → Option Value
  | .table _ entries => entries.lookup name
  | .tables elements => elements.getLast?.bind (List.lookup name)
  | _ => none

def Value.at? : Path → Value → Option Value
  | [], v => some v
  | name :: rest, v => (v.entry? name).bind (at? rest)

def Table.at? (t : Table) (address : Path) : Option Value := Value.at? address (.table .explicit t)

section Lookups

variable {t entries : Table} {name k : String} {v old : Value} {form : TableForm} {address rest : Path}

theorem Table.at?_cons : t.at? (name :: rest) = (t.lookup name).bind (Value.at? rest) := rfl

theorem at?_empty (h : address ≠ []) : Table.at? [] address = none := by
  cases address with
  | nil => exact absurd rfl h
  | cons name rest => rfl

theorem Table.at?_singleton : t.at? [name] = t.lookup name := Option.bind_fun_some _

theorem Value.at?_table (h : address ≠ []) : (Value.table form entries).at? address = entries.at? address := by
  cases address with
  | nil => exact absurd rfl h
  | cons name rest => rfl

theorem Value.at?_tables {elements : List Table} {last : Table} (stands : elements.getLast? = some last)
    (h : address ≠ []) : (Value.tables elements).at? address = last.at? address := by
  cases address with
  | nil => exact absurd rfl h
  | cons name rest => simp [Value.at?, Value.entry?, Table.at?, stands]

theorem lookup_append (absent : t.lookup name = none) (k : String) :
    (t ++ [(name, v)]).lookup k = if k = name then some v else t.lookup k := by
  rw [List.lookup_append]
  by_cases hk : k = name
  · rw [if_pos hk, hk, absent]
    simp
  · rw [if_neg hk, List.lookup_cons, beq_false_of_ne hk]
    exact Option.or_none

theorem lookup_replace (present : t.lookup name = some old) (k : String) :
    (t.replace name v).lookup k = if k = name then some v else t.lookup k := by
  have map : (t.replace name v).lookup k =
      if k = name then (t.lookup k).map fun _ => v else t.lookup k := by
    clear present
    induction t with
    | nil => simp [Table.replace]
    | cons entry t ih =>
      obtain ⟨n, w⟩ := entry
      change List.lookup k ((if n = name then (name, v) else (n, w)) :: Table.replace t name v) = _
      by_cases hn : n = name
      · rw [if_pos hn, List.lookup_cons, List.lookup_cons, ih, hn]
        by_cases hk : k = name
        · simp [hk]
        · simp [hk, beq_false_of_ne hk]
      · rw [if_neg hn, List.lookup_cons, List.lookup_cons, ih]
        by_cases hk : k = n
        · simp [hk, hn]
        · simp [beq_false_of_ne hk]
  by_cases hk : k = name
  · rw [map, if_pos hk, if_pos hk, hk, present]
    rfl
  · rw [map, if_neg hk, if_neg hk]

end Lookups

section Updates

variable {byKey : Bool} {change : TableForm → Table → Option Table} {name : String} {path rest address : Path}
  {form : TableForm} {t t' : Table} {old : Option Value} {new : Value}

def madeForm (byKey : Bool) : TableForm := if byKey then .dotted else .implied

/-- What a change along the rest of a path makes of what stands under the first name. -/
inductive Hop (byKey : Bool) (change : TableForm → Table → Option Table) (rest : Path) :
    Option Value → Value → Prop where
  | made {inner : Table} (h : Table.update byKey change rest (madeForm byKey) [] = some inner) :
    Hop byKey change rest none (.table (madeForm byKey) inner)
  | kept {form : TableForm} {old new : Table} (extends' : form ≠ .closed)
    (h : old.update byKey change rest form = some new) :
    Hop byKey change rest (some (.table form old)) (.table form new)
  | array {elements : List Table} {last new : Table} (h : last.update byKey change rest .explicit = some new)
    (stands : elements.getLast? = some last) :
    Hop byKey change rest (some (.tables elements)) (.tables (elements.dropLast ++ [new]))

theorem update_cons (h : t.update byKey change (name :: rest) form = some t') :
    ∃ new, Hop byKey change rest (t.lookup name) new ∧
      ∀ k, t'.lookup k = if k = name then some new else t.lookup k := by
  rw [Table.update] at h
  split at h
  · rename_i absent
    obtain ⟨inner, inside, made⟩ := Option.bind_eq_some_iff.mp h
    obtain rfl := Option.some.inj made
    rw [absent]
    exact ⟨_, .made inside, lookup_append absent⟩
  · rename_i form entries present
    split_ifs at h with closed
    obtain ⟨inner, inside, kept⟩ := Option.bind_eq_some_iff.mp h
    obtain rfl := Option.some.inj kept
    exact ⟨_, by rw [present]; exact .kept (fun h => closed (.inl h)) inside, lookup_replace present⟩
  · rename_i elements present
    split at h
    · nomatch h
    · rename_i last stands
      obtain ⟨inner, inside, kept⟩ := Option.bind_eq_some_iff.mp h
      obtain rfl := Option.some.inj kept
      exact ⟨_, by rw [present]; exact .array inside stands, lookup_replace present⟩
  · nomatch h

theorem Hop.inside (hop : Hop byKey change rest old new) : ∃ form before after,
    Table.update byKey change rest form before = some after ∧
      ∀ a, a ≠ [] → old.bind (Value.at? a) = Table.at? before a ∧ new.at? a = Table.at? after a := by
  cases hop with
  | @made inner h => exact ⟨_, [], inner, h, fun a ha => ⟨(at?_empty ha).symm, Value.at?_table ha⟩⟩
  | @kept form old new _ h => exact ⟨form, old, new, h, fun a ha => ⟨Value.at?_table ha, Value.at?_table ha⟩⟩
  | @array elements last new h stands =>
    exact ⟨.explicit, last, new, h, fun a ha => ⟨Value.at?_tables stands ha, Value.at?_tables (by simp) ha⟩⟩

theorem exists_changed (h : t.update byKey change path form = some t') :
    ∃ form target target', change form target = some target' := by
  induction path generalizing form t t' with
  | nil => exact ⟨form, t, t', h⟩
  | cons name rest ih =>
    obtain ⟨new, hop, -⟩ := update_cons h
    obtain ⟨form, before, after, inside, -⟩ := hop.inside
    exact ih inside

/-- What is seen before and after at an address on the way to a change. -/
inductive Passed (byKey : Bool) : Option Value → Option Value → Prop where
  | made (entries : Table) : Passed byKey none (some (.table (madeForm byKey) entries))
  | kept {form : TableForm} (extends' : form ≠ .closed) (old new : Table) :
    Passed byKey (some (.table form old)) (some (.table form new))
  | array (old : List Table) (new : Table) :
    Passed byKey (some (.tables old)) (some (.tables (old.dropLast ++ [new])))

theorem Hop.passed (hop : Hop byKey change rest old new) : Passed byKey old (some new) := by
  cases hop with
  | made => exact .made _
  | kept extends' => exact .kept extends' ..
  | array => exact .array ..

/-- What is seen of a change at an address. -/
inductive Seen (byKey : Bool) (change : TableForm → Table → Option Table) (path : Path) (t t' : Table)
    (address : Path) : Prop where
  | same (off : ¬address <+: path) (apart : ¬path <+: address) (h : t'.at? address = t.at? address)
  | passed (on : address <+: path) (h : Passed byKey (t.at? address) (t'.at? address))
  | behind {inner : Path} {form : TableForm} {target target' : Table} (h : address = path ++ inner)
    (some' : inner ≠ []) (changed : change form target = some target')
    (before : ∀ a, a ≠ [] → t.at? (path ++ a) = target.at? a) (after : t'.at? address = target'.at? inner)

theorem Seen.cons {old new : Table} (some' : address ≠ []) (seen : Seen byKey change rest old new address)
    (inside : ∀ a, a ≠ [] → t.at? (name :: a) = old.at? a ∧ t'.at? (name :: a) = new.at? a) :
    Seen byKey change (name :: rest) t t' (name :: address) := by
  obtain ⟨before, after⟩ := inside address some'
  cases seen with
  | same off apart h =>
    refine .same (fun on => off (List.cons_prefix_cons.mp on).2) (fun on => apart (List.cons_prefix_cons.mp on).2) ?_
    rw [before, after, h]
  | passed on h =>
    refine .passed (List.cons_prefix_cons.mpr ⟨rfl, on⟩) ?_
    rw [before, after]
    exact h
  | behind h some' changed before' after' =>
    refine .behind (by rw [h]; rfl) some' changed (fun a ha => ?_) (after.trans after')
    exact (inside (rest ++ a) (List.append_ne_nil_of_right_ne_nil rest ha)).1.trans (before' a ha)

theorem seen_update (h : t.update byKey change path form = some t') (some' : address ≠ []) :
    Seen byKey change path t t' address := by
  induction path generalizing form t t' address with
  | nil => exact .behind rfl some' h (fun _ _ => rfl) rfl
  | cons name rest ih =>
    obtain ⟨new, hop, look⟩ := update_cons h
    cases address with
    | nil => exact absurd rfl some'
    | cons k address =>
      by_cases hk : k = name
      · subst hk
        by_cases last : address = []
        · subst last
          refine .passed (List.cons_prefix_cons.mpr ⟨rfl, List.nil_prefix⟩) ?_
          rw [Table.at?_singleton, Table.at?_singleton, look, if_pos rfl]
          exact hop.passed
        · obtain ⟨form, old, inner, inside, views⟩ := hop.inside
          refine (ih inside last).cons last fun a ha => ⟨(views a ha).1, ?_⟩
          rw [Table.at?_cons, look, if_pos rfl]
          exact (views a ha).2
      · refine .same (fun on => hk (List.cons_prefix_cons.mp on).1)
          (fun on => hk (List.cons_prefix_cons.mp on).1.symm) ?_
        rw [Table.at?_cons, Table.at?_cons, look, if_neg hk]

end Updates

section Entries

variable {t t' : Table} {name : String} {path key address : Path} {v : Value} {d d' : Draft}

/-- What is seen at an address when a value is put in under a key of the table that a path leads to. -/
inductive Enters (v : Value) (path key : Path) (t t' : Table) (address : Path) : Prop where
  | same (apart : ¬path ++ key <+: address) (h : t'.at? address = t.at? address)
  | passed (on : address <+: path) (h : Passed false (t.at? address) (t'.at? address))
  | keyed {inner : Path} (h : address = path ++ inner) (some' : inner ≠ []) (on : inner <+: key.dropLast)
    (passed : Passed true (t.at? address) (t'.at? address))
  | entry {inner : Path} (h : address = path ++ key ++ inner) (before : t.at? address = none)
    (after : t'.at? address = v.at? inner)

theorem seen_add (h : t.add name v = some t') (some' : address ≠ []) :
    (¬[name] <+: address ∧ t'.at? address = t.at? address) ∨
      ∃ inner, address = name :: inner ∧ t.at? address = none ∧ t'.at? address = v.at? inner := by
  unfold Table.add at h
  split_ifs at h with present
  obtain rfl := Option.some.inj h
  have absent : t.lookup name = none := Option.not_isSome_iff_eq_none.mp present
  cases address with
  | nil => exact absurd rfl some'
  | cons k address =>
    by_cases hk : k = name
    · subst hk
      refine .inr ⟨address, rfl, ?_, ?_⟩
      · rw [Table.at?_cons, absent]
        rfl
      · rw [Table.at?_cons, lookup_append absent, if_pos rfl]
        rfl
    · refine .inl ⟨fun h => hk (List.cons_prefix_cons.mp h).1.symm, ?_⟩
      rw [Table.at?_cons, Table.at?_cons, lookup_append absent, if_neg hk]

theorem Enters.inside {target target' : Table} {inner : Path} (h : address = path ++ inner) (some' : inner ≠ [])
    (before : t.at? address = target.at? inner) (after : t'.at? address = target'.at? inner)
    (enters : Enters v [] key target target' inner) : Enters v path key t t' address := by
  cases enters with
  | same apart same =>
    refine .same (fun on => apart ?_) (by rw [before, after, same])
    rw [h] at on
    exact (List.prefix_append_right_inj path).mp on
  | passed on => exact absurd (List.prefix_nil.mp on) some'
  | keyed here inside on passed =>
    obtain rfl := here
    rw [← before, ← after] at passed
    exact .keyed h inside on passed
  | entry here absent entered =>
    exact .entry (by rw [h, here, List.nil_append, List.append_assoc]) (before.trans absent) (after.trans entered)

theorem enters_insert (h : t.insert key v = some t') (some' : address ≠ []) :
    Enters v [] key t t' address := by
  unfold Table.insert at h
  split at h
  · nomatch h
  · rename_i name last
    obtain ⟨parents, rfl⟩ := List.getLast?_eq_some_iff.mp last
    rw [List.dropLast_concat] at h
    split at h
    · rcases seen_add h some' with ⟨apart, same⟩ | ⟨inner, here, absent, entered⟩
      · exact .same apart same
      · exact .entry here absent entered
    · cases seen_update h some' with
      | same _ apart same => exact .same (fun on => apart ((List.prefix_append _ _).trans on)) same
      | passed on passed => exact .keyed rfl some' (by rwa [List.dropLast_concat]) passed
      | @behind inner _ target target' here inside changed before after =>
        split_ifs at changed
        have before := here ▸ before inner inside
        rcases seen_add changed inside with ⟨apart, same⟩ | ⟨rest, rfl, absent, entered⟩
        · refine .same (fun on => apart ?_) (by rw [before, after, same])
          rw [here] at on
          exact (List.prefix_append_right_inj parents).mp on
        · exact .entry (by rw [here]; simp) (before.trans absent) (after.trans entered)

theorem key_ne_nil (h : d.step (.entry key v) = some d') : key ≠ [] := by
  obtain ⟨root, updated, rfl⟩ := Option.map_eq_some_iff.mp h
  obtain ⟨form, target, target', inserted⟩ := exists_changed updated
  rintro rfl
  nomatch inserted

theorem enters_step (h : d.step (.entry key v) = some d') (some' : address ≠ []) :
    Enters v d.current key d.root d'.root address := by
  obtain ⟨root, updated, rfl⟩ := Option.map_eq_some_iff.mp h
  cases seen_update updated some' with
  | same _ apart same => exact .same (fun on => apart ((List.prefix_append _ _).trans on)) same
  | passed on passed => exact .passed on passed
  | @behind inner _ target target' here inside changed before after =>
    exact (enters_insert changed inside).inside here inside (here ▸ before inner inside) after

end Entries

section Headers

variable {t t' : Table} {name : String} {repeated : Bool} {path address : Path} {v : Value} {d d' : Draft}

/-- What a header makes of what stands at its path. -/
inductive Opening : Bool → Option Value → Value → Prop where
  | table : Opening false none (.table .explicit [])
  | implied (entries : Table) : Opening false (some (.table .implied entries)) (.table .explicit entries)
  | element : Opening true none (.tables [[]])
  | further (elements : List Table) : Opening true (some (.tables elements)) (.tables (elements ++ [[]]))

/-- What is seen at an address when a header opens a path. -/
inductive Opens (repeated : Bool) (path : Path) (t t' : Table) (address : Path) : Prop where
  | same (off : ¬address <+: path) (kept : repeated = true → ¬path <+: address)
    (h : t'.at? address = t.at? address)
  | passed (on : address <+: path.dropLast) (h : Passed false (t.at? address) (t'.at? address))
  | opened {new : Value} (h : address = path) (opening : Opening repeated (t.at? address) new)
    (after : t'.at? address = some new)
  | emptied {inner : Path} (h : repeated = true) (named : path ≠ []) (behind : address = path ++ inner)
    (some' : inner ≠ []) (after : t'.at? address = none)

theorem Opening.behind {old : Option Value} (opening : Opening repeated old v) (some' : address ≠ []) :
    v.at? address = if repeated then none else old.bind (Value.at? address) := by
  cases address with
  | nil => exact absurd rfl some'
  | cons => cases opening <;> simp [Value.at?, Value.entry?]

/-- A change that opens a name in the table a path leads to opens the path that ends in that name. -/
theorem Seen.opens {change : TableForm → Table → Option Table}
    (seen : Seen false change path t t' address)
    (opens : ∀ {form target target'}, change form target = some target' → ∃ new,
      Opening repeated (target.lookup name) new ∧
        ∀ k, target'.lookup k = if k = name then some new else target.lookup k) :
    Opens repeated (path ++ [name]) t t' address := by
  cases seen with
  | same off apart h =>
    refine .same (fun on => ?_) (fun _ on => apart ((List.prefix_append _ _).trans on)) h
    rcases List.prefix_concat_iff.mp on with rfl | on
    · exact apart (List.prefix_append _ _)
    · exact off on
  | passed on h => exact .passed (by rwa [List.dropLast_concat]) h
  | @behind inner _ target _ h some' changed before after =>
    obtain ⟨new, opening, look⟩ := opens changed
    subst h
    cases inner with
    | nil => exact absurd rfl some'
    | cons k rest =>
      rw [Table.at?_cons, look] at after
      have before := before (k :: rest) some'
      by_cases hk : k = name
      · subst hk
        rw [if_pos rfl, Option.bind_some] at after
        by_cases last : rest = []
        · subst last
          rw [Table.at?_singleton] at before
          exact .opened rfl (before ▸ opening) after
        · rw [opening.behind last] at after
          cases repeated with
          | true => exact .emptied rfl (List.concat_ne_nil _ _) (List.append_cons ..) last after
          | false =>
            refine .same (fun on => last ?_) nofun (after.trans (before.trans Table.at?_cons).symm)
            exact List.prefix_nil.mp (List.cons_prefix_cons.mp ((List.prefix_append_right_inj path).mp on)).2
      · rw [if_neg hk] at after
        have off {a : Path} : ¬k :: a <+: [name] := fun on => hk (List.cons_prefix_cons.mp on).1
        refine .same (fun on => off ((List.prefix_append_right_inj path).mp on)) (fun _ on => hk ?_)
          (after.trans before.symm)
        exact (List.cons_prefix_cons.mp ((List.prefix_append_right_inj path).mp on)).1.symm
theorem opens_table (h : d.step (.table path) = some d') (some' : address ≠ []) :
    Opens false path d.root d'.root address := by
  obtain ⟨root, updated, rfl⟩ := Option.map_eq_some_iff.mp h
  unfold Table.openTable at updated
  split at updated
  · nomatch updated
  · rename_i name last
    obtain ⟨parents, rfl⟩ := List.getLast?_eq_some_iff.mp last
    rw [List.dropLast_concat] at updated
    refine (seen_update updated some').opens fun {_ target _} changed => ?_
    split at changed
    · rename_i absent
      obtain rfl := Option.some.inj changed
      exact ⟨_, absent ▸ .table, lookup_append absent⟩
    · rename_i entries present
      obtain rfl := Option.some.inj changed
      exact ⟨_, present ▸ .implied entries, lookup_replace present⟩
    · nomatch changed

theorem opens_element (h : d.step (.element path) = some d') (some' : address ≠ []) :
    Opens true path d.root d'.root address := by
  obtain ⟨root, updated, rfl⟩ := Option.map_eq_some_iff.mp h
  unfold Table.openElement at updated
  split at updated
  · nomatch updated
  · rename_i name last
    obtain ⟨parents, rfl⟩ := List.getLast?_eq_some_iff.mp last
    rw [List.dropLast_concat] at updated
    refine (seen_update updated some').opens fun {_ target _} changed => ?_
    split at changed
    · rename_i absent
      obtain rfl := Option.some.inj changed
      exact ⟨_, absent ▸ .element, lookup_append absent⟩
    · rename_i elements present
      obtain rfl := Option.some.inj changed
      exact ⟨_, present ▸ .further elements, lookup_replace present⟩
    · nomatch changed

end Headers

end Countersign.Toml
