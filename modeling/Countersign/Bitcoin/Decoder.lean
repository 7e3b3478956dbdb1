import Countersign.Bytes

/-!
# Consensus decoding

A decoder takes what it needs from the front of a byte string and leaves the rest, or fails. Counts
and lengths are compact sizes: one byte below 253, else a marker byte and 2, 4 or 8 bytes, of which
only the shortest form is accepted. `exactly` wants the whole string consumed.
-/

set_option autoImplicit false

namespace Countersign

abbrev Decoder := StateT Bytes Option

namespace Decoder

def take (n : Nat) : Decoder Bytes := Bytes.split? n

def byte : Decoder UInt8
  | b :: r => some (b, r)
  | [] => none

def natLE (width : Nat) : Decoder Nat := do
  return Bytes.toNatLE (← take width)

def u32 : Decoder UInt32 := do
  return UInt32.ofNat (← natLE 4)

def u64 : Decoder UInt64 := do
  return UInt64.ofNat (← natLE 8)

def require (b : Bool) : Decoder Unit := if b then pure () else failure

def wide (width least : Nat) : Decoder Nat := do
  let n ← natLE width
  require (least ≤ n)
  return n

def compactSize : Decoder Nat := do
  let b ← byte
  if b = 0xff then wide 8 0x100000000
  else if b = 0xfe then wide 4 0x10000
  else if b = 0xfd then wide 2 0xfd
  else return b.toNat

def sized : Decoder Bytes := do
  take (← compactSize)

def times {α : Type} : Nat → Decoder α → Decoder (List α)
  | 0, _ => pure []
  | k + 1, d => do
    let a ← d
    let r ← times k d
    return a :: r

def counted {α : Type} (d : Decoder α) : Decoder (List α) := do
  times (← compactSize) d

/-- The most bytes that a witness takes, or the first map of a packet, or one of its keys or values. -/
def maxBytes : Nat := 4000000

def within {α : Type} (limit : Nat) (d : Decoder α) : Decoder α := fun b => do
  let (a, rest) ← d b
  if b.length - rest.length ≤ limit then some (a, rest) else none

def exactly {α : Type} (d : Decoder α) (b : Bytes) : Option α :=
  match d b with
  | some (a, []) => some a
  | _ => none

end Decoder

namespace CompactSize

def encode (n : Nat) : Bytes :=
  if n < 0xfd then [UInt8.ofNat n]
  else if n < 0x10000 then 0xfd :: Bytes.ofNatLE 2 n
  else if n < 0x100000000 then 0xfe :: Bytes.ofNatLE 4 n
  else 0xff :: Bytes.ofNatLE 8 n

def sized (b : Bytes) : Bytes := encode b.length ++ b

def counted {α : Type} (f : α → Bytes) (l : List α) : Bytes := encode l.length ++ l.flatMap f

end CompactSize

end Countersign
