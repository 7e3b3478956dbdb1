import Countersign.Bytes

/-!
# Base 64

Three bytes make four digits, and a last group of one or two bytes is filled up with `=`. Reading
accepts exactly the written form, so the digits of a short group may not hold stray bits.
-/

set_option autoImplicit false

namespace Countersign.Base64

def alphabet : List Char :=
  "ABCDEFGHIJKLMNOPQRSTUVWXYZabcdefghijklmnopqrstuvwxyz0123456789+/".toList

def digit (n : Nat) : Char := alphabet.getD (n % 64) 'A'

def encodeChars : Bytes → List Char
  | [] => []
  | [a] =>
    let n := a.toNat * 16
    [digit (n / 64), digit n, '=', '=']
  | [a, b] =>
    let n := (a.toNat * 256 + b.toNat) * 4
    [digit (n / 4096), digit (n / 64), digit n, '=']
  | a :: b :: c :: r =>
    let n := a.toNat * 65536 + b.toNat * 256 + c.toNat
    digit (n / 262144) :: digit (n / 4096) :: digit (n / 64) :: digit n :: encodeChars r

def encode (b : Bytes) : String := String.ofList (encodeChars b)

def decodeChars? : List Char → Option Bytes
  | [] => some []
  | [a, b, '=', '='] => do
    let n := (← alphabet.idxOf? a) * 64 + (← alphabet.idxOf? b)
    if n % 16 = 0 then some [UInt8.ofNat (n / 16)] else none
  | [a, b, c, '='] => do
    let n := ((← alphabet.idxOf? a) * 64 + (← alphabet.idxOf? b)) * 64 + (← alphabet.idxOf? c)
    if n % 4 = 0 then some (Bytes.ofNatBE 2 (n / 4)) else none
  | a :: b :: c :: d :: r => do
    let high := (← alphabet.idxOf? a) * 64 + (← alphabet.idxOf? b)
    let low := (← alphabet.idxOf? c) * 64 + (← alphabet.idxOf? d)
    let rest ← decodeChars? r
    return Bytes.ofNatBE 3 (high * 4096 + low) ++ rest
  | _ => none

def decode? (s : String) : Option Bytes := decodeChars? s.toList

end Countersign.Base64
