import Countersign.Toml.Value

/-!
# Records in documents

A record is written as a table or as an array of its first fields in their order. Fields that are not
written take a default, and what the record does not know is passed over; a date, for one, gives no
field of any record. A name without arguments is a text or a table whose single entry is empty.
-/

set_option autoImplicit false

namespace Countersign.Toml

namespace Value

def record? (names : List String) : Value → Option Table
  | .table _ entries => some entries
  | .array items => some (names.zip items)
  | .tables elements => some (names.zip (elements.map (.table .explicit)))
  | .moment _ => some []
  | _ => none

def string? : Value → Option String
  | .string s => some s
  | _ => none

def nat? : Value → Option Nat
  | .integer (.ofNat n) => some n
  | _ => none

def u16? (v : Value) : Option UInt16 :=
  v.nat?.bind fun n => if n < UInt16.size then some (UInt16.ofNat n) else none

def u32? (v : Value) : Option UInt32 :=
  v.nat?.bind fun n => if n < UInt32.size then some (UInt32.ofNat n) else none

def u64? (v : Value) : Option UInt64 :=
  v.nat?.bind fun n => if n < UInt64.size then some (UInt64.ofNat n) else none

def isEmpty : Value → Bool
  | .array [] => true
  | .table _ [] => true
  | _ => false

def variant? : Value → Option String
  | .string s => some s
  | .table _ [(name, v)] => if v.isEmpty then some name else none
  | _ => none

end Value

def Table.field? {α : Type} (t : Table) (name : String) (default : α) (read : Value → Option α) :
    Option α :=
  match t.lookup name with
  | none => some default
  | some v => read v

end Countersign.Toml
