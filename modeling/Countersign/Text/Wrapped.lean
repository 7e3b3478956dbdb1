/-!
# Wrapped lines

A line that is too wide is continued below. It may break where a run of blanks ends, and the blanks before a
break are dropped; a word that is too wide for any line stands on one of its own.
-/

set_option autoImplicit false

namespace Countersign.Wrapped

def words : List Char → List (List Char)
  | [] => []
  | c :: r =>
    match words r with
    | [] => [[c]]
    | word :: rest =>
      if c = ' ' ∧ word.head? ≠ some ' ' then [c] :: word :: rest else (c :: word) :: rest

def trimEnd (cs : List Char) : List Char := (cs.reverse.dropWhile (· == ' ')).reverse

def fill (width : Nat) (line : List Char) : List (List Char) → List (List Char)
  | [] => [trimEnd line]
  | word :: rest =>
    if line ≠ [] ∧ width < line.length + (trimEnd word).length then
      trimEnd line :: fill width word rest
    else fill width (line ++ word) rest

def lines (width : Nat) (text : String) : List String :=
  (fill width [] (words text.toList)).map String.ofList

theorem flatten_words (cs : List Char) : (words cs).flatten = cs := by
  induction cs with
  | nil => rfl
  | cons c r ih =>
    rw [words]
    split
    · rename_i h
      rw [h] at ih
      simpa using ih
    · rename_i h
      rw [h] at ih
      split <;> simpa using ih

end Countersign.Wrapped
