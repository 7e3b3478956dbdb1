import Countersign.Proofs.Toml.Addresses

/-!
# What a document holds

What stands at an address of a document follows from what its statements say about that address, wherever
they stand and however they are spread over headers, dotted keys and tables written as values. An address
that no statement mentions holds nothing; one at which an entry puts a text or a number holds that and
nothing else, as long as no header adds an element to an array of tables on the way to it.
-/

set_option autoImplicit false

namespace Countersign.Toml

/-- What the entries put in, each value at its whole path. -/
def assigned : Path → List Statement → List (Path × Value)
  | _, [] => []
  | _, .table path :: rest => assigned path rest
  | _, .element path :: rest => assigned path rest
  | current, .entry key v :: rest => (current ++ key, v) :: assigned current rest

/-- An entry puts a value at an address, by itself or inside a table that it writes. -/
def Puts (current : Path) (ss : List Statement) (address : Path) (v : Value) : Prop :=
  ∃ p ∈ assigned current ss, ∃ inner, address = p.1 ++ inner ∧ p.2.at? inner = some v

def Statement.header : Bool → Path → Statement
  | true => .element
  | false => .table

def Mentions (current : Path) (ss : List Statement) (address : Path) : Prop :=
  (∃ repeated path, .header repeated path ∈ ss ∧ address <+: path) ∨
    (∃ p ∈ assigned current ss, address <+: p.1) ∨ ∃ v, Puts current ss address v

/-- An address at which nothing but a table is put. -/
def Tabular (current : Path) (ss : List Statement) (address : Path) : Prop :=
  .element address ∉ ss ∧ ∀ v, Puts current ss address v → ∃ form entries, v = .table form entries

def Value.IsPlain (v : Value) : Prop :=
  (∀ form entries, v ≠ .table form entries) ∧ ∀ elements, v ≠ .tables elements

section Steps

variable {d d' : Draft} {s : Statement} {ss : List Statement} {current address : Path} {v : Value}

def Statement.opened (current : Path) : Statement → Path
  | .table path => path
  | .element path => path
  | .entry _ _ => current

theorem current_step (h : d.step s = some d') : d'.current = s.opened d.current := by
  cases s <;> obtain ⟨root, -, rfl⟩ := Option.map_eq_some_iff.mp h <;> rfl

theorem assigned_cons (ss : List Statement) :
    assigned current (s :: ss) = assigned current [s] ++ assigned (s.opened current) ss := by
  cases s <;> rfl

theorem puts_cons (ss : List Statement) : Puts current (s :: ss) address v ↔
    Puts current [s] address v ∨ Puts (s.opened current) ss address v := by
  simp only [Puts, assigned_cons ss, List.mem_append, or_and_right, exists_or]

theorem mentions_of_head (h : Mentions current [s] address) : Mentions current (s :: ss) address := by
  rcases h with ⟨repeated, path, header, on⟩ | ⟨p, hp, on⟩ | ⟨v, puts⟩
  · exact .inl ⟨repeated, path, List.mem_singleton.mp header ▸ List.mem_cons_self, on⟩
  · exact .inr (.inl ⟨p, assigned_cons _ ▸ List.mem_append_left _ hp, on⟩)
  · exact .inr (.inr ⟨v, (puts_cons _).mpr (.inl puts)⟩)

theorem mentions_of_tail (h : Mentions (s.opened current) ss address) : Mentions current (s :: ss) address := by
  rcases h with ⟨repeated, path, header, on⟩ | ⟨p, hp, on⟩ | ⟨v, puts⟩
  · exact .inl ⟨repeated, path, List.mem_cons_of_mem _ header, on⟩
  · exact .inr (.inl ⟨p, assigned_cons _ ▸ List.mem_append_right _ hp, on⟩)
  · exact .inr (.inr ⟨v, (puts_cons _).mpr (.inr puts)⟩)

theorem tabular_cons : Tabular current (s :: ss) address ↔
    Tabular current [s] address ∧ Tabular (s.opened current) ss address := by
  simp only [Tabular, puts_cons ss, List.mem_cons, List.not_mem_nil, or_false, or_imp, forall_and, not_or]
  exact and_and_and_comm

theorem step_seen (h : d.step s = some d') (some' : address ≠ []) :
    (∃ repeated path, s = .header repeated path ∧ Opens repeated path d.root d'.root address) ∨
      ∃ key v, s = .entry key v ∧ Enters v d.current key d.root d'.root address := by
  cases s with
  | table path => exact .inl ⟨false, path, rfl, opens_table h some'⟩
  | element path => exact .inl ⟨true, path, rfl, opens_element h some'⟩
  | entry key v => exact .inr ⟨key, v, rfl, enters_step h some'⟩

theorem absent_step (h : d.step s = some d') (some' : address ≠ []) (absent : d.root.at? address = none)
    (silent : ¬Mentions d.current [s] address) : d'.root.at? address = none := by
  rcases step_seen h some' with ⟨repeated, path, rfl, opens⟩ | ⟨key, v, rfl, enters⟩
  · have mentions (on : address <+: path) : Mentions d.current [.header repeated path] address :=
      .inl ⟨repeated, path, List.mem_cons_self, on⟩
    cases opens with
    | same _ _ same => exact same.trans absent
    | passed on => exact absurd (mentions (on.trans (List.dropLast_prefix path))) silent
    | opened here => exact absurd (mentions (here ▸ List.prefix_rfl)) silent
    | emptied _ _ _ _ after => exact after
  · have put : (d.current ++ key, v) ∈ assigned d.current [.entry key v] := List.mem_cons_self
    cases enters with
    | same _ same => exact same.trans absent
    | passed on => exact absurd (.inr (.inl ⟨_, put, on.trans (List.prefix_append _ key)⟩)) silent
    | keyed here _ on =>
      have on' : address <+: d.current ++ key :=
        here ▸ (List.prefix_append_right_inj _).mpr (on.trans (List.dropLast_prefix key))
      exact absurd (.inr (.inl ⟨_, put, on'⟩)) silent
    | @entry inner here before after =>
      cases inside : v.at? inner with
      | none => exact after.trans inside
      | some w => exact absurd (.inr (.inr ⟨w, _, put, inner, here, inside⟩)) silent

/-- No header adds an element to an array of tables on the way to an address. -/
def Single (ss : List Statement) (address : Path) : Prop :=
  ∀ way, way <+: address → way ≠ address → way ≠ [] → .element way ∉ ss

theorem plain_step (h : d.step s = some d') (plain : v.IsPlain) (single : Single [s] address)
    (present : d.root.at? address = some v) : d'.root.at? address = some v := by
  have some' : address ≠ [] := by
    rintro rfl
    exact plain.1 _ _ (Option.some.inj present).symm
  have stays {byKey : Bool} (passed : Passed byKey (d.root.at? address) (d'.root.at? address)) : False := by
    rw [present] at passed
    generalize d'.root.at? address = new at passed
    cases passed with
    | kept => exact plain.1 _ _ rfl
    | array => exact plain.2 _ rfl
  rcases step_seen h some' with ⟨repeated, path, rfl, opens⟩ | ⟨key, w, rfl, enters⟩
  · cases opens with
    | same _ _ same => exact same.trans present
    | passed _ passed => exact (stays passed).elim
    | opened _ opening =>
      rw [present] at opening
      cases opening with
      | implied => exact absurd rfl (plain.1 _ _)
      | further => exact absurd rfl (plain.2 _)
    | emptied added named behind inside =>
      subst added behind
      exact absurd List.mem_cons_self (single path (List.prefix_append _ _) (by simp [inside]) named)
  · cases enters with
    | same _ same => exact same.trans present
    | passed _ passed | keyed _ _ _ passed => exact (stays passed).elim
    | entry _ before => nomatch before.symm.trans present

def Table.TabularAt (t : Table) (address : Path) : Prop :=
  ∀ v, t.at? address = some v → ∃ form entries, v = .table form entries

theorem tabularAt_nil (t : Table) : t.TabularAt [] := fun _ hv => ⟨_, _, (Option.some.inj hv).symm⟩

theorem tabularAt_step (h : d.step s = some d') (some' : address ≠ []) (tabular : d.root.TabularAt address)
    (puts : Tabular d.current [s] address) : d'.root.TabularAt address := by
  have stays {byKey : Bool} (passed : Passed byKey (d.root.at? address) (d'.root.at? address)) :
      d'.root.TabularAt address := by
    intro v hv
    generalize old : d.root.at? address = before at passed
    rw [hv] at passed
    cases passed with
    | made entries => exact ⟨_, entries, rfl⟩
    | kept _ _ new => exact ⟨_, new, rfl⟩
    | array =>
      obtain ⟨form, entries, table⟩ := tabular _ old
      nomatch table
  rcases step_seen h some' with ⟨repeated, path, rfl, opens⟩ | ⟨key, w, rfl, enters⟩
  · cases opens with
    | same _ _ same => exact fun v hv => tabular v (same ▸ hv)
    | passed _ passed => exact stays passed
    | opened here opening after =>
      intro v hv
      obtain rfl := Option.some.inj (after.symm.trans hv)
      generalize d.root.at? address = before at opening
      cases opening with
      | table => exact ⟨_, _, rfl⟩
      | implied entries => exact ⟨_, entries, rfl⟩
      | element | further => exact absurd (here ▸ List.mem_cons_self) puts.1
    | emptied _ _ _ _ after => exact fun v hv => nomatch after.symm.trans hv
  · have put : (d.current ++ key, w) ∈ assigned d.current [.entry key w] := List.mem_cons_self
    cases enters with
    | same _ same => exact fun v hv => tabular v (same ▸ hv)
    | passed _ passed | keyed _ _ _ passed => exact stays passed
    | @entry inner here before after =>
      intro v hv
      exact puts.2 v ⟨_, put, inner, here, after.symm.trans hv⟩

theorem puts_step (h : d.step s = some d') (some' : address ≠ []) (puts : Puts d.current [s] address v) :
    d'.root.at? address = some v := by
  obtain ⟨p, hp, inner, here, inside⟩ := puts
  cases s with
  | table path => nomatch hp
  | element path => nomatch hp
  | entry key w =>
    obtain rfl := List.mem_singleton.mp hp
    have named := List.length_pos_iff.mpr (key_ne_nil h)
    subst here
    cases enters_step h some' with
    | same apart => exact absurd (List.prefix_append _ inner) apart
    | passed on =>
      have := on.length_le
      simp only [List.length_append] at this
      omega
    | keyed here _ on =>
      rw [List.append_assoc] at here
      obtain rfl := List.append_cancel_left here
      have := on.length_le
      simp only [List.length_append, List.length_dropLast] at this
      omega
    | entry here before after =>
      obtain rfl := List.append_cancel_left here
      exact after.trans inside

end Steps

section Runs

variable {d d' : Draft} {ss : List Statement} {root : Table} {address : Path} {v : Value}

theorem absent_run (h : ss.foldlM Draft.step d = some d') (some' : address ≠ [])
    (absent : d.root.at? address = none) (silent : ¬Mentions d.current ss address) :
    d'.root.at? address = none := by
  induction ss generalizing d with
  | nil => exact Option.some.inj h ▸ absent
  | cons s ss ih =>
    obtain ⟨next, first, later⟩ := Option.bind_eq_some_iff.mp h
    refine ih later (absent_step first some' absent (mt mentions_of_head silent)) ?_
    rw [current_step first]
    exact mt mentions_of_tail silent

theorem single_cons {s : Statement} : Single (s :: ss) address ↔ Single [s] address ∧ Single ss address := by
  simp only [Single, List.mem_cons, List.not_mem_nil, or_false, not_or, ← forall_and]

theorem plain_run (h : ss.foldlM Draft.step d = some d') (plain : v.IsPlain) (single : Single ss address)
    (present : d.root.at? address = some v) : d'.root.at? address = some v := by
  induction ss generalizing d with
  | nil => exact Option.some.inj h ▸ present
  | cons s ss ih =>
    obtain ⟨next, first, later⟩ := Option.bind_eq_some_iff.mp h
    obtain ⟨now, then'⟩ := single_cons.mp single
    exact ih later then' (plain_step first plain now present)

theorem tabularAt_run (h : ss.foldlM Draft.step d = some d') (some' : address ≠ [])
    (tabular : d.root.TabularAt address) (puts : Tabular d.current ss address) : d'.root.TabularAt address := by
  induction ss generalizing d with
  | nil => exact Option.some.inj h ▸ tabular
  | cons s ss ih =>
    obtain ⟨next, first, later⟩ := Option.bind_eq_some_iff.mp h
    obtain ⟨now, then'⟩ := tabular_cons.mp puts
    exact ih later (tabularAt_step first some' tabular now) (current_step first ▸ then')

theorem puts_run (h : ss.foldlM Draft.step d = some d') (some' : address ≠ []) (plain : v.IsPlain)
    (puts : Puts d.current ss address v) (single : Single ss address) : d'.root.at? address = some v := by
  induction ss generalizing d with
  | nil =>
    obtain ⟨p, hp, -⟩ := puts
    nomatch hp
  | cons s ss ih =>
    obtain ⟨next, first, later⟩ := Option.bind_eq_some_iff.mp h
    obtain ⟨-, then'⟩ := single_cons.mp single
    rcases (puts_cons _).mp puts with now | later'
    · exact plain_run later plain then' (puts_step first some' now)
    · exact ih later (current_step first ▸ later') then'

theorem exists_run (h : ofStatements? ss = some root) :
    ∃ current, ss.foldlM Draft.step Draft.empty = some ⟨root, current⟩ := by
  obtain ⟨d, run, rfl⟩ := Option.map_eq_some_iff.mp h
  exact ⟨d.current, run⟩

theorem tabularAt_empty : Table.TabularAt [] address := by
  intro v hv
  by_cases named : address = []
  · exact tabularAt_nil [] v (named ▸ hv)
  · nomatch (at?_empty named).symm.trans hv

/-- An address that no statement mentions holds nothing. -/
theorem at?_eq_none (h : ofStatements? ss = some root) (some' : address ≠ [])
    (silent : ¬Mentions [] ss address) : root.at? address = none := by
  obtain ⟨current, run⟩ := exists_run h
  exact absent_run run some' (at?_empty some') silent

theorem tabularAt_of_tabular (h : ofStatements? ss = some root) (some' : address ≠ [])
    (tabular : Tabular [] ss address) : root.TabularAt address := by
  obtain ⟨current, run⟩ := exists_run h
  exact tabularAt_run run some' tabularAt_empty tabular

/-- An address holds what an entry puts there. -/
theorem at?_eq_some (h : ofStatements? ss = some root) (some' : address ≠ []) (plain : v.IsPlain)
    (puts : Puts [] ss address v) (single : Single ss address) : root.at? address = some v := by
  obtain ⟨current, run⟩ := exists_run h
  exact puts_run run some' plain puts single

end Runs

section Checks

variable {current address : Path} {ss : List Statement} {v : Value}

def headers (ss : List Statement) : List (Bool × Path) :=
  ss.filterMap fun
    | .table path => some (false, path)
    | .element path => some (true, path)
    | .entry _ _ => none

theorem mem_headers {repeated : Bool} {path : Path} :
    (repeated, path) ∈ headers ss ↔ .header repeated path ∈ ss := by
  rw [headers, List.mem_filterMap]
  constructor
  · rintro ⟨s, hs, same⟩
    cases s with
    | table | element =>
      obtain ⟨rfl, rfl⟩ := Prod.mk.inj (Option.some.inj same)
      exact hs
    | entry => nomatch same
  · intro h
    exact ⟨_, h, by cases repeated <;> rfl⟩

def held (current : Path) (ss : List Statement) (address : Path) : List Value :=
  (assigned current ss).filterMap fun p =>
    if p.1 <+: address then p.2.at? (address.drop p.1.length) else none

theorem mem_held : v ∈ held current ss address ↔ Puts current ss address v := by
  simp only [held, Puts, List.mem_filterMap]
  refine exists_congr fun p => and_congr_right fun _ => ⟨fun h => ?_, ?_⟩
  · split_ifs at h with before
    obtain ⟨inner, rfl⟩ := before
    exact ⟨inner, rfl, by simpa using h⟩
  · rintro ⟨inner, rfl, inside⟩
    simpa using inside

instance : Decidable (Mentions current ss address) :=
  decidable_of_iff ((∃ h ∈ headers ss, address <+: h.2) ∨ (∃ p ∈ assigned current ss, address <+: p.1) ∨
      held current ss address ≠ []) (by
    simp only [Mentions, ← mem_held, ← mem_headers, Prod.exists, ne_eq, List.eq_nil_iff_forall_not_mem,
      Classical.not_forall, Classical.not_not])

def Value.isTable : Value → Bool
  | .table _ _ => true
  | _ => false

theorem Value.isTable_iff : v.isTable = true ↔ ∃ form entries, v = .table form entries := by
  cases v <;> simp [isTable]

instance : Decidable (Tabular current ss address) :=
  decidable_of_iff ((true, address) ∉ headers ss ∧ ∀ v ∈ held current ss address, v.isTable = true) (by
    simp only [Tabular, ← mem_held, mem_headers, Value.isTable_iff, Statement.header])

end Checks

end Countersign.Toml
