import Countersign.Bytes

/-!
# Bech32 and bech32m

A witness program is written in groups of five bits behind a prefix that names the network, followed
by a checksum of six groups over both. Version 0 closes its checksum with the constant of bech32 and
later versions with that of bech32m.
-/

set_option autoImplicit false

namespace Countersign.Bech32

def alphabet : List Char := "qpzry9x8gf2tvdw0s3jn54khce6mua7l".toList

def generators : List Nat := [0x3b6a57b2, 0x26508e6d, 0x1ea119fa, 0x3d4233dd, 0x2a1462b3]

def polymodStep (c v : Nat) : Nat :=
  let top := c >>> 25
  let next := ((c &&& 0x1ffffff) <<< 5) ^^^ v
  (List.range 5).foldl
    (fun acc i => if (top >>> i) % 2 = 1 then acc ^^^ generators.getD i 0 else acc) next

def polymod (values : List Nat) : Nat := values.foldl polymodStep 1

def expandPrefix (hrp : String) : List Nat :=
  hrp.toList.map (·.toNat / 32) ++ [0] ++ hrp.toList.map (·.toNat % 32)

def constant (version : Nat) : Nat := if version = 0 then 1 else 0x2bc830a3

def checksum (constant : Nat) (hrp : String) (groups : List Nat) : List Nat :=
  let residue := polymod (expandPrefix hrp ++ groups ++ List.replicate 6 0) ^^^ constant
  [25, 20, 15, 10, 5, 0].map fun shift => (residue >>> shift) % 32

def bits (width n : Nat) : List Nat := (List.range width).reverse.map fun i => (n >>> i) % 2

def group (b : List Nat) : Nat := (b ++ List.replicate (5 - b.length) 0).foldl (fun n d => 2 * n + d) 0

def groupsOfBits : Nat → List Nat → List Nat
  | 0, _ => []
  | k + 1, b => if b.isEmpty then [] else group (b.take 5) :: groupsOfBits k (b.drop 5)

def groups (b : Bytes) : List Nat :=
  let all := b.flatMap fun x => bits 8 x.toNat
  groupsOfBits all.length all

def encode (hrp : String) (version : Nat) (program : Bytes) : String :=
  let data := version :: groups program
  hrp ++ "1" ++
    String.ofList ((data ++ checksum (constant version) hrp data).map fun v => alphabet.getD v 'q')

/-- How many bytes the groups of a program hold, if they end in less than a group of zero bits. -/
def programLength? (groups : List Nat) : Option Nat :=
  let padding := groups.length * 5 % 8
  if padding ≤ 4 ∧ (groups.getLast?.getD 0) % Nat.pow 2 padding = 0 then some (groups.length * 5 / 8)
  else none

def isProgram (version : Nat) (groups : List Nat) : Bool :=
  match programLength? groups with
  | some n =>
    version ≤ 16 && 2 ≤ n && n ≤ 40 && (version != 0 || n == 20 || n == 32)
  | none => false

/-- The prefix of a text that writes a program, all in one case. -/
def prefix? (s : String) : Option String := do
  let cs := s.toList
  if cs.any Char.isUpper && cs.any Char.isLower then failure
  let lower := cs.map Char.toLower
  let data := (lower.reverse.takeWhile (· != '1')).reverse
  if data.length = lower.length then failure
  let hrp := String.ofList (lower.take (lower.length - data.length - 1))
  let values ← data.mapM alphabet.idxOf?
  let version ← values.head?
  if polymod (expandPrefix hrp ++ values) ≠ constant version then failure
  if isProgram version ((values.drop 1).take (values.length - 7)) then return hrp else failure

end Countersign.Bech32
