import Countersign.Bitcoin.Transaction
import Countersign.Curve.Key

/-!
# Scripts

A script is written from items: an x-only key, a number or an opcode. A number up to sixteen has an
opcode of its own, and a larger one is pushed as the shortest little-endian string whose top bit is
clear. The output scripts recognised here are those of taproot and of public key hashes.
-/

set_option autoImplicit false

namespace Countersign

namespace Script

inductive Opcode where
  | checkSig
  | checkSigVerify
  | checkSigAdd
  | numEqual
  | numEqualVerify
  | checkSequenceVerify
  deriving DecidableEq, Repr

def Opcode.byte : Opcode → UInt8
  | .checkSig => 0xac
  | .checkSigVerify => 0xad
  | .checkSigAdd => 0xba
  | .numEqual => 0x9c
  | .numEqualVerify => 0x9d
  | .checkSequenceVerify => 0xb2

inductive Item where
  | key (k : XOnlyKey)
  | number (n : UInt32)
  | op (o : Opcode)
  deriving DecidableEq

def digits (n : Nat) : Bytes := (Bytes.ofNatLE 4 n).reverse.dropWhile (· == 0) |>.reverse

/-- A number as the stack holds it: the top bit is the sign, so a set one needs another byte. -/
def numberBytes (n : Nat) : Bytes :=
  let d := digits n
  if (d.getLast?.getD 0) < 0x80 then d else d ++ [0]

def encodeNumber (n : UInt32) : Bytes :=
  if n = 0 then [0]
  else if n ≤ 16 then [0x50 + n.toUInt8]
  else
    let b := numberBytes n.toNat
    UInt8.ofNat b.length :: b

def Item.encode : Item → Bytes
  | .key k => 0x20 :: k.bytes
  | .number n => encodeNumber n
  | .op o => [o.byte]

def ofItems (items : List Item) : Script := items.flatMap Item.encode

def taproot (outputKey : XOnlyKey) : Script := 0x51 :: 0x20 :: outputKey.bytes

def isTaproot (s : Script) : Bool :=
  s.length == 34 && s.take 2 == [0x51, 0x20]

end Script

end Countersign
