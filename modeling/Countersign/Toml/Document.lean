import Countersign.Toml.Statement

/-!
# Documents

The statements of a text are carried out one after the other: a header opens the table to which the
entries that follow it belong. The text may start with a mark of its byte order, and its lines end in a
line feed that a carriage return may precede.
-/

set_option autoImplicit false

namespace Countersign.Toml

/-- What has been read: the whole table, and the path of the table that was opened last. -/
structure Draft where
  root : Table
  current : Path

namespace Draft

def empty : Draft := ⟨[], []⟩

def step (d : Draft) : Statement → Option Draft
  | .table path => (d.root.openTable path).map fun root => ⟨root, path⟩
  | .element path => (d.root.openElement path).map fun root => ⟨root, path⟩
  | .entry path v =>
    (d.root.update false (fun _ t => t.insert path v) d.current .explicit).map
      fun root => { d with root }

end Draft

def ofStatements? (statements : List Statement) : Option Table :=
  (statements.foldlM Draft.step Draft.empty).map Draft.root

def unifyBreaks : List Char → List Char
  | '\r' :: '\n' :: r => '\n' :: unifyBreaks r
  | c :: r => c :: unifyBreaks r
  | [] => []

def withoutMark : List Char → List Char
  | '\ufeff' :: r => r
  | r => r

def parseChars? (cs : List Char) : Option Table :=
  let text := unifyBreaks (withoutMark cs)
  (statements? (text.length + 1) text).bind ofStatements?

def parse? (s : String) : Option Table := parseChars? s.toList

end Countersign.Toml
