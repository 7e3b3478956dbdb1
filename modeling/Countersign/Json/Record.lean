import Countersign.Json.Value

/-!
# Records in JSON

A record is written as an object or as an array of its fields in their order. In an object unknown
members are passed over, whatever they hold, and a known member may stand only once. A name without
arguments is a string or an object whose single member holds null.
-/

set_option autoImplicit false

namespace Countersign.Json

abbrev Record := List (Bytes × Json)

def isText (b : Bytes) : Bool := (Utf8.decode? b).isSome

def distinct : List Bytes → Bool
  | [] => true
  | n :: r => !r.contains n && distinct r

def record? (names : List String) : Json → Option Record
  | .object members =>
    let known := members.filter fun m => (names.map Utf8.encode).contains m.1
    if members.all (fun m => isText m.1) && distinct (known.map (·.1)) then some known else none
  | .array items =>
    if items.length = names.length then some ((names.map Utf8.encode).zip items) else none
  | _ => none

/-- An array may end before fields that have a default. -/
def openRecord? (least : Nat) (names : List String) : Json → Option Record
  | .array items =>
    if least ≤ items.length ∧ items.length ≤ names.length then some ((names.map Utf8.encode).zip items)
    else none
  | v => v.record? names

namespace Record

def get? (r : Record) (name : String) : Option Json := r.lookup (Utf8.encode name)

def required {α : Type} (r : Record) (name : String) (read : Json → Option α) : Option α :=
  (r.get? name).bind read

/-- Absent and null are the same. -/
def optional {α : Type} (r : Record) (name : String) (read : Json → Option α) : Option (Option α) :=
  match r.get? name with
  | none => some none
  | some .null => some none
  | some v => (read v).map some

/-- Absent stands for the default, which null does not. -/
def defaulted {α : Type} (r : Record) (name : String) (read : Json → Option α) : Option (Option α) :=
  match r.get? name with
  | none => some none
  | some v => (read v).map some

end Record

def variant? : Json → Option Bytes
  | .string content => some content
  | .object [(name, .null)] => some name
  | _ => none

end Countersign.Json
