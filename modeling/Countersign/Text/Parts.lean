/-!
# Parts of a text

A separator cuts a text into parts, of which there is one more than there are separators.
-/

set_option autoImplicit false

namespace Countersign.Parts

def split (separator : Char) : List Char → List (List Char)
  | [] => [[]]
  | c :: r =>
    if c = separator then [] :: split separator r
    else
      match split separator r with
      | [] => [[c]]
      | part :: parts => (c :: part) :: parts

theorem split_ne_nil (separator : Char) (cs : List Char) : split separator cs ≠ [] := by
  cases cs with
  | nil => simp [split]
  | cons c r =>
    rw [split]
    split
    · simp
    · split <;> simp

theorem intercalate_split (separator : Char) (cs : List Char) :
    [separator].intercalate (split separator cs) = cs := by
  induction cs with
  | nil => rfl
  | cons c r ih =>
    rw [split]
    split
    · rename_i h
      cases hs : split separator r with
      | nil => exact absurd hs (split_ne_nil separator r)
      | cons part parts =>
        rw [hs] at ih
        rw [← ih, ← h]
        simp [List.intercalate, List.intersperse]
    · cases hs : split separator r with
      | nil => exact absurd hs (split_ne_nil separator r)
      | cons part parts =>
        rw [hs] at ih
        cases parts with
        | nil => simpa [List.intercalate] using ih
        | cons q qs => simpa [List.intercalate, List.intersperse] using ih

end Countersign.Parts
