import Countersign.Text.Parts

/-!
# Internet addresses

An address is four bytes, or eight groups of sixteen bits. Bytes are written in decimal without leading
zeros. Groups are written in hexadecimal; one run of zero groups may be left out behind a double colon,
and the last two groups may be written as four bytes. An address that embeds four bytes is shown with
them, and any other leaves out the first of its longest runs of at least two zero groups.
-/

set_option autoImplicit false

namespace Countersign

inductive IpAddress where
  | v4 (a b c d : UInt8)
  | v6 (groups : Vector UInt16 8)
  deriving DecidableEq

namespace IpAddress

def decimal (cs : List Char) : Nat := cs.foldl (fun n c => n * 10 + (c.toNat - 48)) 0

def byte? (cs : List Char) : Option UInt8 :=
  if !cs.isEmpty && cs.length ≤ 3 && cs.all Char.isDigit && (cs.head? != some '0' || cs.length == 1)
      && decimal cs < 256 then
    some (UInt8.ofNat (decimal cs))
  else none

def bytes? (cs : List Char) : Option (UInt8 × UInt8 × UInt8 × UInt8) :=
  match Parts.split '.' cs with
  | [a, b, c, d] => do return (← byte? a, ← byte? b, ← byte? c, ← byte? d)
  | _ => none

def hexValue? (c : Char) : Option Nat :=
  if c.isDigit then some (c.toNat - 48)
  else if 'a' ≤ c ∧ c ≤ 'f' then some (c.toNat - 87)
  else if 'A' ≤ c ∧ c ≤ 'F' then some (c.toNat - 55)
  else none

def group? (cs : List Char) : Option UInt16 :=
  if cs.isEmpty || 4 < cs.length then none
  else (cs.foldl (fun n c => do return (← n) * 16 + (← hexValue? c)) (some 0)).map UInt16.ofNat

def pair (a b : UInt8) : UInt16 := UInt16.ofNat (a.toNat * 256 + b.toNat)

/-- Groups between colons, the last two of which may be written as bytes. -/
def groups? (bytesLast : Bool) : List (List Char) → Option (List UInt16)
  | [] => some []
  | [last] =>
    match group? last with
    | some g => some [g]
    | none =>
      if bytesLast then (bytes? last).map fun (a, b, c, d) => [pair a b, pair c d] else none
  | part :: parts => do return (← group? part) :: (← groups? bytesLast parts)

def side? (bytesLast : Bool) (cs : List Char) : Option (List UInt16) :=
  if cs.isEmpty then some [] else groups? bytesLast (Parts.split ':' cs)

def cut? : List Char → Option (List Char × List Char)
  | ':' :: ':' :: r => some ([], r)
  | c :: r => (cut? r).map fun (before, after) => (c :: before, after)
  | [] => none

def ofGroups? (gs : List UInt16) : Option IpAddress :=
  if h : gs.length = 8 then some (.v6 ⟨gs.toArray, by simpa using h⟩) else none

def v6? (cs : List Char) : Option IpAddress :=
  match cut? cs with
  | none => (groups? true (Parts.split ':' cs)).bind ofGroups?
  | some (before, after) => do
    let head ← side? false before
    let tail ← side? true after
    if head.length + tail.length < 8 then
      ofGroups? (head ++ List.replicate (8 - head.length - tail.length) 0 ++ tail)
    else none

def parse? (s : String) : Option IpAddress :=
  match bytes? s.toList with
  | some (a, b, c, d) => some (.v4 a b c d)
  | none => v6? s.toList

def bytesText (a b c d : Nat) : String := s!"{a}.{b}.{c}.{d}"

def groupText (g : UInt16) : String := String.ofList (Nat.toDigits 16 g.toNat)

def groupsText (gs : List UInt16) : String := ":".intercalate (gs.map groupText)

def zerosFrom (gs : List UInt16) (start : Nat) : Nat := ((gs.drop start).takeWhile (· == 0)).length

def longestZeros (gs : List UInt16) : Nat × Nat :=
  (List.range gs.length).foldl
    (fun best start => if zerosFrom gs start > best.2 then (start, zerosFrom gs start) else best) (0, 0)

def compressed (gs : List UInt16) : String :=
  let (start, length) := longestZeros gs
  if length ≤ 1 then groupsText gs
  else groupsText (gs.take start) ++ "::" ++ groupsText (gs.drop (start + length))

def text : IpAddress → String
  | .v4 a b c d => bytesText a.toNat b.toNat c.toNat d.toNat
  | .v6 groups =>
    match groups.toList with
    | [0, 0, 0, 0, 0, 0xffff, x, y] =>
      "::ffff:" ++ bytesText (x.toNat / 256) (x.toNat % 256) (y.toNat / 256) (y.toNat % 256)
    | gs => compressed gs

end IpAddress

structure Endpoint where
  address : IpAddress
  port : UInt16
  deriving DecidableEq

def Endpoint.text (e : Endpoint) : String :=
  match e.address with
  | .v4 .. => s!"{e.address.text}:{e.port.toNat}"
  | .v6 _ => s!"[{e.address.text}]:{e.port.toNat}"

end Countersign
