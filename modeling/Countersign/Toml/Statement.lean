import Countersign.Toml.Scalar
import Countersign.Toml.Text
import Countersign.Toml.Value

/-!
# Statements

A document is read line by line as headers and entries. An entry's value may go over several lines inside
arrays and tripled quotes; a table written as a value stays on one line, and its entries obey the rules of
dotted keys at once. Keys have fewer than eighty parts, and values are nested less deep than that.
-/

set_option autoImplicit false

namespace Countersign.Toml

inductive Statement where
  | table (path : Path)
  | element (path : Path)
  | entry (path : Path) (value : Value)

def maxDepth : Nat := 79

def skipBlanks (cs : List Char) : List Char := cs.dropWhile isBlank

def skipGaps (comment : Bool) : List Char → List Char
  | [] => []
  | c :: r =>
    if comment then
      if isLineChar c then skipGaps true r
      else if c = '\n' then skipGaps false r
      else c :: r
    else if isBlank c ∨ c = '\n' then skipGaps false r
    else if c = '#' then skipGaps true r
    else c :: r

def withoutComment : List Char → List Char
  | '#' :: r => r.dropWhile isLineChar
  | r => r

def lineEnd? (cs : List Char) : Option (List Char) :=
  match withoutComment (skipBlanks cs) with
  | [] => some []
  | '\n' :: r => some r
  | _ => none

def isBareKeyChar (c : Char) : Bool := c.isAlphanum || c == '-' || c == '_'

def keyPart? : List Char → Option (String × List Char)
  | '"' :: r => lineText? '"' r
  | '\'' :: r => lineText? '\'' r
  | r =>
    let bare := r.takeWhile isBareKeyChar
    if bare.isEmpty then none else some (String.ofList bare, r.dropWhile isBareKeyChar)

def path? : Nat → List Char → Option (Path × List Char)
  | 0, _ => none
  | k + 1, cs => do
    let (part, r) ← keyPart? (skipBlanks cs)
    match skipBlanks r with
    | '.' :: r' => do
      let (parts, rest) ← path? k r'
      return (part :: parts, rest)
    | r' => return ([part], r')

def entryKey? (cs : List Char) : Option (Path × List Char) := do
  let (path, r) ← path? maxDepth cs
  match r with
  | '=' :: rest => return (path, skipBlanks rest)
  | _ => none

mutual

/-- The first number bounds the calls, of which each reads something or is the first on its input; the
second is how deep values may still be nested. -/
def value? : Nat → Nat → List Char → Option (Value × List Char)
  | 0, _, _ => none
  | _ + 1, _, [] => none
  | k + 1, depth, c :: r =>
    if c = '"' ∨ c = '\'' then (quoted? c (c :: r)).map fun (s, rest) => (.string s, rest)
    else if c = '[' then
      match depth with
      | 0 => none
      | depth + 1 =>
        match skipGaps false r with
        | ']' :: rest => some (.array [], rest)
        | r' => (items? k depth r').map fun (items, rest) => (.array items, rest)
    else if c = '\x7b' then
      match depth with
      | 0 => none
      | depth + 1 =>
        match skipBlanks r with
        | '\x7d' :: rest => some (.table .closed [], rest)
        | r' => (entries? k depth [] r').map fun (entries, rest) => (.table .closed entries, rest)
    else scalar? (c :: r)

def items? : Nat → Nat → List Char → Option (List Value × List Char)
  | 0, _, _ => none
  | k + 1, depth, cs => do
    let (v, r) ← value? k depth cs
    match skipGaps false r with
    | ']' :: rest => return ([v], rest)
    | ',' :: r' =>
      match skipGaps false r' with
      | ']' :: rest => return ([v], rest)
      | r'' => do
        let (vs, rest) ← items? k depth r''
        return (v :: vs, rest)
    | _ => none

def entries? : Nat → Nat → Table → List Char → Option (Table × List Char)
  | 0, _, _, _ => none
  | k + 1, depth, t, cs => do
    let (path, r) ← entryKey? cs
    let (v, r) ← value? k depth r
    let t ← t.insert path v
    match skipBlanks r with
    | '\x7d' :: rest => return (t, rest)
    | ',' :: r' => entries? k depth t r'
    | _ => none

end

def statement? (cs : List Char) : Option (Statement × List Char) :=
  match cs with
  | '[' :: '[' :: r => do
    let (path, r) ← path? maxDepth r
    match r with
    | ']' :: ']' :: r' => return (.element path, ← lineEnd? r')
    | _ => none
  | '[' :: r => do
    let (path, r) ← path? maxDepth r
    match r with
    | ']' :: r' => return (.table path, ← lineEnd? r')
    | _ => none
  | r => do
    let (path, r) ← entryKey? r
    let (v, r) ← value? (2 * r.length + 2) maxDepth r
    return (.entry path v, ← lineEnd? r)

def statements? : Nat → List Char → Option (List Statement)
  | 0, _ => none
  | k + 1, cs =>
    match skipBlanks cs with
    | [] => some []
    | '\n' :: r => statements? k r
    | '#' :: r => do statements? k (← lineEnd? ('#' :: r))
    | r => do
      let (s, rest) ← statement? r
      return s :: (← statements? k rest)

end Countersign.Toml
