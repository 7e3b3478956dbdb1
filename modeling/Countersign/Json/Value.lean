import Countersign.Text.Utf8

/-!
# JSON values

A value keeps what its text says: the members of an object stand in their order with repeated names,
and a number that is not written as an integer stays a literal. A string is kept as bytes, because an
escape may name half of a surrogate pair: that half is kept as the three bytes its number would take,
which no text contains. `text?` gives the strings that are text.
-/

set_option autoImplicit false

namespace Countersign

inductive Json where
  | null
  | bool (b : Bool)
  | integer (n : Int)
  | decimal (literal : Bytes)
  | string (content : Bytes)
  | array (items : List Json)
  | object (members : List (Bytes × Json))
  deriving Repr, Inhabited

namespace Json

def ofText (s : String) : Json := .string (Utf8.encode s)

def ofNat (n : Nat) : Json := .integer (Int.ofNat n)

def ofMembers (members : List (String × Json)) : Json :=
  .object (members.map fun (name, v) => (Utf8.encode name, v))

def text? : Json → Option String
  | .string content => Utf8.decode? content
  | _ => none

def int? : Json → Option Int
  | .integer n => some n
  | _ => none

def nat? : Json → Option Nat
  | .integer (.ofNat n) => some n
  | _ => none

def u16? (v : Json) : Option UInt16 :=
  v.nat?.bind fun n => if n < UInt16.size then some (UInt16.ofNat n) else none

def u32? (v : Json) : Option UInt32 :=
  v.nat?.bind fun n => if n < UInt32.size then some (UInt32.ofNat n) else none

def u64? (v : Json) : Option UInt64 :=
  v.nat?.bind fun n => if n < UInt64.size then some (UInt64.ofNat n) else none

def i32? (v : Json) : Option Int32 :=
  v.int?.bind fun n => if -2147483648 ≤ n ∧ n < 2147483648 then some (Int32.ofInt n) else none

def bool? : Json → Option Bool
  | .bool b => some b
  | _ => none

def items? : Json → Option (List Json)
  | .array items => some items
  | _ => none

theorem text?_ofText (s : String) : (ofText s).text? = some s := Utf8.decode?_encode s

end Json

end Countersign
