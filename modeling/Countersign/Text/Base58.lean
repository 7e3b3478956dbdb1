import Countersign.Hash.Sha256

/-!
# Base 58

A byte string is read as a number to base 58, each leading `1` standing for a zero byte. The checked
form ends in four bytes of the double hash of what precedes them.
-/

set_option autoImplicit false

namespace Countersign.Base58

def alphabet : List Char :=
  "123456789ABCDEFGHJKLMNPQRSTUVWXYZabcdefghijkmnopqrstuvwxyz".toList

def number? (cs : List Char) : Option Nat :=
  cs.foldl (fun n c => do return (← n) * 58 + (← alphabet.idxOf? c)) (some 0)

/-- How many digits to base 256 a number has, at most `most`. -/
def width : Nat → Nat → Nat
  | 0, _ => 0
  | most + 1, n => if n = 0 then 0 else width most (n / 256) + 1

def decode? (s : String) : Option Bytes :=
  let cs := s.toList
  (number? cs).map fun n =>
    (cs.takeWhile (· == '1')).map (fun _ => 0) ++ Bytes.ofNatBE (width cs.length n) n

def decodeChecked? (s : String) : Option Bytes :=
  (decode? s).bind fun b =>
    let payload := b.take (b.length - 4)
    if 4 ≤ b.length ∧ (Sha256.double payload).take 4 = b.drop (b.length - 4) then some payload
    else none

end Countersign.Base58
