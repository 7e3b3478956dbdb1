/-!
# Settings documents

A document is a tree of tables. A table remembers how it came about, because that decides who may still
add to it: a header may complete a table that was only implied by longer paths, dotted keys may extend
only tables that dotted keys made, and nobody may extend a table written as a value. Entries stand in the
order in which they were written, and no table holds a name twice.
-/

set_option autoImplicit false

namespace Countersign.Toml

inductive TableForm where
  /-- Named by a header of its own. -/
  | explicit
  /-- Passed through by a header of a longer path. -/
  | implied
  /-- Passed through by a dotted key. -/
  | dotted
  /-- Written as a value. -/
  | closed
  deriving DecidableEq, Repr

inductive Value where
  | string (s : String)
  | integer (n : Int)
  | float (literal : String)
  | boolean (b : Bool)
  /-- A date, a time of day or both. -/
  | moment (literal : String)
  | array (items : List Value)
  | table (form : TableForm) (entries : List (String × Value))
  /-- The tables that repeated headers of one path have added. -/
  | tables (elements : List (List (String × Value)))
  deriving Repr, Inhabited

def integerBound : Nat := 9223372036854775808

abbrev Path := List String

abbrev Table := List (String × Value)

namespace Table

def replace (t : Table) (name : String) (v : Value) : Table :=
  t.map fun entry => if entry.1 = name then (name, v) else entry

/-- Changes the table that a path leads to, making the tables that are missing on the way. A path leads
through an array of tables to its last element. -/
def update (byKey : Bool) (change : TableForm → Table → Option Table) :
    Path → TableForm → Table → Option Table
  | [], form, t => change form t
  | name :: rest, _, t =>
    match t.lookup name with
    | none => do
      let form := if byKey then TableForm.dotted else .implied
      let inner ← update byKey change rest form []
      return t ++ [(name, .table form inner)]
    | some (.table form entries) =>
      if form = .closed ∨ (byKey ∧ form = .explicit) then none
      else do
        let inner ← update byKey change rest form entries
        return t.replace name (.table form inner)
    | some (.tables elements) =>
      match elements.getLast? with
      | none => none
      | some last => do
        let inner ← update byKey change rest .explicit last
        return t.replace name (.tables (elements.dropLast ++ [inner]))
    | some _ => none

def add (t : Table) (name : String) (v : Value) : Option Table :=
  if (t.lookup name).isSome then none else some (t ++ [(name, v)])

/-- Adds a value under a dotted key, of which all parts but the last name tables that dotted keys made. -/
def insert (t : Table) (path : Path) (v : Value) : Option Table :=
  match path.getLast? with
  | none => none
  | some name =>
    match path.dropLast with
    | [] => t.add name v
    | parents =>
      update true (fun form target => if form = .dotted then target.add name v else none) parents
        .explicit t

def openTable (t : Table) (path : Path) : Option Table :=
  match path.getLast? with
  | none => none
  | some name =>
    update false
      (fun _ target =>
        match target.lookup name with
        | none => some (target ++ [(name, .table .explicit [])])
        | some (.table .implied entries) => some (target.replace name (.table .explicit entries))
        | _ => none)
      path.dropLast .explicit t

def openElement (t : Table) (path : Path) : Option Table :=
  match path.getLast? with
  | none => none
  | some name =>
    update false
      (fun _ target =>
        match target.lookup name with
        | none => some (target ++ [(name, .tables [[]])])
        | some (.tables elements) => some (target.replace name (.tables (elements ++ [[]])))
        | _ => none)
      path.dropLast .explicit t

end Table

end Countersign.Toml
