import Countersign.Bitcoin.Decoder

/-!
# Entries of a packet

A packet of a partially signed transaction is a row of maps. An entry of a map has a type byte, a key
that may be empty, and a value, and an empty entry key closes the map. Entries are kept in the order
of a rank that no two of them may share.
-/

set_option autoImplicit false

namespace Countersign

structure Entry where
  type : UInt8
  key : Bytes
  value : Bytes
  deriving DecidableEq

namespace Entry

def encode (e : Entry) : Bytes :=
  CompactSize.sized (e.type :: e.key) ++ CompactSize.sized e.value

def encodeMap (es : List Entry) : Bytes := es.flatMap encode ++ [0]

end Entry

namespace Decoder

/-- The entries up to the end of the map, of which there are fewer than `fuel`. The limit leaves out
the length of a key and counts that of a value. -/
def entriesWithin : Nat → Decoder (List Entry)
  | 0 => failure
  | fuel + 1 => do
    match ← sized with
    | [] => return []
    | type :: key => do
      require (key.length ≤ maxBytes)
      let value ← within maxBytes sized
      let rest ← entriesWithin fuel
      return ⟨type, key, value⟩ :: rest

def entries : Decoder (List Entry) := do
  let rest ← get
  entriesWithin (rest.length + 1)

end Decoder

/-- Puts a value where its rank belongs, unless one of that rank is there. -/
def insertRanked {α : Type} (rank : α → Bytes) (a : α) : List α → Option (List α)
  | [] => some [a]
  | b :: r =>
    if rank a = rank b then none
    else if Bytes.le (rank a) (rank b) then some (a :: b :: r)
    else (insertRanked rank a r).map (b :: ·)

end Countersign
