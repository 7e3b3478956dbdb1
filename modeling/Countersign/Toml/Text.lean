/-!
# Texts in documents

A text is written in one of four forms. Basic forms know escapes, literal forms write every character as
itself; both also come with tripled quotes, and then go over several lines. A line break right after
tripled quotes is not part of the text, and a backslash at the end of a line joins it to the next word.
Line breaks are line feeds here: those of two characters have been made one before.
-/

set_option autoImplicit false

namespace Countersign.Toml

def isBlank (c : Char) : Bool := c == ' ' || c == '\t'

def isLineChar (c : Char) : Bool := c == '\t' || (0x20 ≤ c.toNat && c.toNat ≠ 0x7f)

/-- The raw content of a text on one line, and what follows its closing quote. A character after a
backslash does not close the text. -/
def rawLine (mark : Char) (escapes : Bool) : List Char → Option (List Char × List Char)
  | [] => none
  | [c] => if c = mark then some ([], []) else none
  | c :: x :: r =>
    if c = mark then some ([], x :: r)
    else if escapes ∧ c = '\\' then (rawLine mark escapes r).map fun (raw, rest) => (c :: x :: raw, rest)
    else (rawLine mark escapes (x :: r)).map fun (raw, rest) => (c :: raw, rest)

/-- A run of three quotes or more closes a text. Up to two quotes in front of the last three belong to
the text. -/
def closing? (mark : Char) (cs : List Char) : Option (List Char × List Char) :=
  let run := (cs.takeWhile (· == mark)).length
  if run < 3 then none else some (List.replicate (min (run - 3) 2) mark, cs.drop (min run 5))

def rawLines (mark : Char) (escapes : Bool) : List Char → Option (List Char × List Char)
  | [] => none
  | [_] => none
  | c :: x :: r =>
    match closing? mark (c :: x :: r) with
    | some (raw, rest) => some (raw, rest)
    | none =>
      if escapes ∧ c = '\\' then (rawLines mark escapes r).map fun (raw, rest) => (c :: x :: raw, rest)
      else (rawLines mark escapes (x :: r)).map fun (raw, rest) => (c :: raw, rest)

def hexValue? (c : Char) : Option Nat :=
  if '0' ≤ c ∧ c ≤ '9' then some (c.toNat - 48)
  else if 'a' ≤ c ∧ c ≤ 'f' then some (c.toNat - 87)
  else if 'A' ≤ c ∧ c ≤ 'F' then some (c.toNat - 55)
  else none

def numbered? (ds : List Char) : Option Char := do
  let n ← ds.foldl (fun n d => do return (← n) * 16 + (← hexValue? d)) (some 0)
  if n.isValidChar then some (Char.ofNat n) else none

def escaped? : Char → Option Char
  | 'b' => some '\x08'
  | 't' => some '\t'
  | 'n' => some '\n'
  | 'f' => some '\x0c'
  | 'r' => some '\r'
  | '"' => some '"'
  | '\\' => some '\\'
  | _ => none

def endsLine (cs : List Char) : Bool := (cs.dropWhile isBlank).head? == some '\n'

/-- The text that a raw content with escapes stands for. While `joining`, blanks and line breaks are
passed over. -/
def unescape (joining : Bool) : List Char → Option (List Char)
  | [] => some []
  | '\\' :: 'u' :: a :: b :: c :: d :: r => do
    let x ← numbered? [a, b, c, d]
    return x :: (← unescape false r)
  | '\\' :: 'U' :: a :: b :: c :: d :: e :: f :: g :: h :: r => do
    let x ← numbered? [a, b, c, d, e, f, g, h]
    return x :: (← unescape false r)
  | ['\\'] => none
  | '\\' :: x :: r =>
    if endsLine (x :: r) then unescape true r
    else do
      let y ← escaped? x
      return y :: (← unescape false r)
  | c :: r =>
    if joining ∧ (isBlank c ∨ c = '\n') then unescape true r
    else (unescape false r).map (c :: ·)

def withoutFirstBreak : List Char → List Char
  | '\n' :: r => r
  | r => r

def meaning? (escapes : Bool) (raw : List Char) : Option (List Char) :=
  if escapes then unescape false raw else some raw

def lineText? (mark : Char) (cs : List Char) : Option (String × List Char) := do
  let (raw, rest) ← rawLine mark (mark == '"') cs
  if raw.all isLineChar then
    let content ← meaning? (mark == '"') raw
    return (String.ofList content, rest)
  else none

def linesText? (mark : Char) (cs : List Char) : Option (String × List Char) := do
  let (raw, rest) ← rawLines mark (mark == '"') (withoutFirstBreak cs)
  if raw.all fun c => isLineChar c || c == '\n' then
    let content ← meaning? (mark == '"') raw
    return (String.ofList content, rest)
  else none

def quoted? (mark : Char) : List Char → Option (String × List Char)
  | a :: b :: c :: r =>
    if a = mark then
      if b = mark ∧ c = mark then linesText? mark r else lineText? mark (b :: c :: r)
    else none
  | a :: r => if a = mark then lineText? mark r else none
  | [] => none

end Countersign.Toml
