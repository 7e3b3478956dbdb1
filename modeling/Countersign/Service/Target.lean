import Countersign.Text.Utf8

/-!
# The parts of a request

A method and the names of headers are words of few characters, and a header's value is one line. A request
names its target as an absolute path with an optional query, as `*`, as a full address or as
an authority alone, which has no path. Some characters may stand in none of them. A fragment is not part
of the target.
-/

set_option autoImplicit false

namespace Countersign.Http

def isPathByte (b : UInt8) : Bool :=
  b == 0x21 || (0x24 ≤ b && b ≤ 0x3b) || b == 0x3d || (0x40 ≤ b && b ≤ 0x5f) ||
    (0x61 ≤ b && b ≤ 0x7e) || b == 0x22 || 0x80 ≤ b

def isQueryByte (b : UInt8) : Bool :=
  b == 0x21 || (0x24 ≤ b && b ≤ 0x3b) || b == 0x3d || (0x3f ≤ b && b ≤ 0x7e) || 0x80 ≤ b

def isAuthorityByte (b : UInt8) : Bool :=
  b == 0x21 || (0x24 ≤ b && b ≤ 0x2e) || (0x30 ≤ b && b ≤ 0x3b) || b == 0x3d ||
    (0x40 ≤ b && b ≤ 0x5b) || b == 0x5d || b == 0x5f || (0x61 ≤ b && b ≤ 0x7a) || b == 0x7e

def isSchemeByte (b : UInt8) : Bool :=
  (0x61 ≤ b && b ≤ 0x7a) || (0x41 ≤ b && b ≤ 0x5a) || (0x30 ≤ b && b ≤ 0x39) || b == 0x2b ||
    b == 0x2d || b == 0x2e

def originPath? (b : Bytes) : Option Bytes :=
  let target := b.takeWhile (· != 0x23)
  let path := target.takeWhile (· != 0x3f)
  let query := target.drop (path.length + 1)
  if path.all isPathByte && query.all isQueryByte then some path else none

def afterScheme? (b : Bytes) : Option Bytes :=
  match b.dropWhile isSchemeByte with
  | 0x3a :: 0x2f :: 0x2f :: r => if isSchemeByte (b.headD 0) then some r else none
  | _ => none

def absolutePath? (b : Bytes) : Option Bytes :=
  let authority := b.takeWhile fun c => c != 0x2f && c != 0x3f && c != 0x23
  let rest := b.drop authority.length
  if authority.isEmpty || !authority.all isAuthorityByte then none
  else
    match rest with
    | 0x2f :: _ => originPath? rest
    | _ => (originPath? (0x2f :: rest)).map fun _ => [0x2f]

def pathBytes? (b : Bytes) : Option Bytes :=
  match b with
  | 0x2f :: _ => originPath? b
  | [0x2a] => some b
  | _ =>
    match afterScheme? b with
    | some r => absolutePath? r
    | none => if !b.isEmpty && b.all isAuthorityByte then some [] else none

def isTokenChar (c : Char) : Bool := c.isAlphanum || "!#$%&'*+-.^_`|~".toList.contains c

def token? (s : String) : Option String :=
  if !s.isEmpty && s.toList.all isTokenChar then some s else none

def headerValue? (s : String) : Option Bytes :=
  let b := Utf8.encode s
  if b.all fun c => c == 0x09 || (0x20 ≤ c && c != 0x7f) then some b else none

def targetPath? (target : String) : Option String :=
  (pathBytes? (Utf8.encode target)).bind Utf8.decode?

end Countersign.Http
