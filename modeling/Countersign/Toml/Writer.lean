import Countersign.Toml.Text

/-!
# Writing documents

A document is written as sections of simple entries, with an empty line between sections. A text takes
the first form that shows it without escapes: basic, literal, basic over several lines, literal over
several lines. Only a text that none of them can show is escaped.
-/

set_option autoImplicit false

namespace Countersign.Toml

inductive TextForm where
  | basic
  | literal
  | basicLines
  | literalLines
  deriving DecidableEq, Repr

def needsNumber (c : Char) : Bool :=
  (c.toNat < 0x20 && c != '\t' && c != '\n') || c.toNat == 0x7f

def hasTriple (mark : Char) : List Char → Bool
  | a :: b :: c :: r => (a == mark && b == mark && c == mark) || hasTriple mark (b :: c :: r)
  | _ => false

def TextForm.choose (cs : List Char) : TextForm :=
  let plain := !cs.any needsNumber
  let lines := cs.contains '\n'
  if plain && !lines && !cs.contains '\\' && !cs.contains '"' then .basic
  else if plain && !lines && !cs.contains '\'' then .literal
  else if plain && !cs.contains '\\' && !hasTriple '"' cs then .basicLines
  else if plain && !hasTriple '\'' cs then .literalLines
  else if lines then .basicLines
  else .basic

def hexDigit (n : Nat) : Char := Char.ofNat (if n < 10 then 48 + n else 55 + n)

def hexQuad (n : Nat) : List Char :=
  [hexDigit (n / 4096 % 16), hexDigit (n / 256 % 16), hexDigit (n / 16 % 16), hexDigit (n % 16)]

def escape (c : Char) : List Char :=
  if c = '\t' then ['\\', 't']
  else if c = '\n' then ['\\', 'n']
  else if c = '\r' then ['\\', 'r']
  else if c = '\x08' then ['\\', 'b']
  else if c = '\x0c' then ['\\', 'f']
  else if c = '"' ∨ c = '\\' then ['\\', c]
  else if needsNumber c then '\\' :: 'u' :: hexQuad c.toNat
  else [c]

/-- Characters between tripled basic quotes, `quotes` counting the quotes just written: a third in a row
is escaped. -/
def escapeLines (quotes : Nat) : List Char → List Char
  | [] => []
  | c :: r =>
    if c = '"' then
      if quotes = 2 then '\\' :: '"' :: escapeLines 0 r else '"' :: escapeLines (quotes + 1) r
    else if c = '\n' then '\n' :: escapeLines 0 r
    else escape c ++ escapeLines 0 r

def firstBreak (cs : List Char) : List Char := if cs.contains '\n' then ['\n'] else []

def TextForm.write (cs : List Char) : TextForm → List Char
  | .basic => '"' :: cs.flatMap escape ++ ['"']
  | .literal => '\'' :: cs ++ ['\'']
  | .basicLines => ['"', '"', '"'] ++ firstBreak cs ++ escapeLines 0 cs ++ ['"', '"', '"']
  | .literalLines => ['\'', '\'', '\''] ++ firstBreak cs ++ cs ++ ['\'', '\'', '\'']

def textChars (cs : List Char) : List Char := (TextForm.choose cs).write cs

inductive Setting where
  | text (s : String)
  | number (n : Nat)
  deriving DecidableEq, Repr

namespace Setting

def chars : Setting → List Char
  | .text s => textChars s.toList
  | .number n => (toString n).toList

def line (name : String) (s : Setting) : List Char := name.toList ++ [' ', '=', ' '] ++ s.chars ++ ['\n']

end Setting

structure Section where
  name : String
  settings : List (String × Setting)
  deriving DecidableEq, Repr

def Section.chars (s : Section) : List Char :=
  '[' :: s.name.toList ++ [']', '\n'] ++ s.settings.flatMap fun (name, v) => v.line name

def sectionsChars : List Section → List Char
  | [] => []
  | [s] => s.chars
  | s :: r => s.chars ++ '\n' :: sectionsChars r

end Countersign.Toml
