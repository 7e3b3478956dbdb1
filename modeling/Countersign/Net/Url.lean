import Countersign.Hex
import Countersign.Text.Parts

/-!
# Addresses over HTTP

Of an address a client asks the host for the path and the query. Backslashes count as slashes, dots name
the directory itself and the one above it, a fragment is left out, and characters that may not stand in a
request are written by the numbers of their bytes. A host is written with its port.
-/

set_option autoImplicit false

namespace Countersign.Url

def isSkipped (c : Char) : Bool := c == '\t' || c == '\n' || c == '\r'

def endsAuthority (c : Char) : Bool := c == '/' || c == '\\' || c == '?' || c == '#'

def isPathLiteral (b : UInt8) : Bool :=
  0x20 < b && b < 0x7f && !"\"#<>?`\x7b\x7d".toList.contains (Char.ofUInt8 b)

def isQueryLiteral (b : UInt8) : Bool :=
  0x20 < b && b < 0x7f && !"\"#<>'".toList.contains (Char.ofUInt8 b)

def upperDigit (n : Nat) : Char := Char.ofNat (if n < 10 then 48 + n else 55 + n)

def encode (isLiteral : UInt8 → Bool) (cs : List Char) : List Char :=
  (Utf8.encode (String.ofList cs)).flatMap fun b =>
    if isLiteral b then [Char.ofUInt8 b]
    else ['%', upperDigit (b.toNat / 16), upperDigit (b.toNat % 16)]

def dots? : List Char → Option Nat
  | [] => some 0
  | '.' :: r => (dots? r).map (· + 1)
  | '%' :: '2' :: e :: r => if e = 'e' ∨ e = 'E' then (dots? r).map (· + 1) else none
  | _ => none

def resolve (done : List (List Char)) : List (List Char) → List (List Char)
  | [] => done
  | part :: rest =>
    let last := rest.isEmpty
    match dots? part with
    | some 1 => resolve (if last then done ++ [[]] else done) rest
    | some 2 => resolve (if last then done.dropLast ++ [[]] else done.dropLast) rest
    | _ => resolve (done ++ [part]) rest

def path (cs : List Char) : List Char :=
  let slashed := cs.map fun c => if c = '\\' then '/' else c
  let parts := resolve [] ((Parts.split '/' slashed).drop 1)
  '/' :: encode isPathLiteral (['/'].intercalate parts)

def query : List Char → List Char
  | '?' :: r => '?' :: encode isQueryLiteral r
  | _ => []

def afterScheme? : List Char → Option (List Char)
  | ':' :: '/' :: '/' :: r => some r
  | _ :: r => afterScheme? r
  | [] => none

def target? (host address : String) : Option String := do
  let rest := (← afterScheme? address.toList).filter (!isSkipped ·)
  if rest.takeWhile (!endsAuthority ·) ≠ host.toList then none
  else
    let place := (rest.dropWhile (!endsAuthority ·)).takeWhile (· != '#')
    let pathPart := place.takeWhile (· != '?')
    return String.ofList (path pathPart ++ query (place.dropWhile (· != '?')))

end Countersign.Url
