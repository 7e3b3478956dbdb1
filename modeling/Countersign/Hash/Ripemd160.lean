import Countersign.Hash.Sha256

/-!
# RIPEMD-160

Two lines of eighty steps run over the same sixteen words of a block, each with its own order of
words, amounts of rotation and constants, and meet again in the chaining state. `hash160` is the
short commitment to a public key that pay-to-witness-public-key-hash outputs carry.
-/

set_option autoImplicit false

namespace Countersign.Ripemd160

structure State where
  a : UInt32
  b : UInt32
  c : UInt32
  d : UInt32
  e : UInt32

def initial : State := ⟨0x67452301, 0xefcdab89, 0x98badcfe, 0x10325476, 0xc3d2e1f0⟩

def leftWords : List Nat :=
  [0, 1, 2, 3, 4, 5, 6, 7, 8, 9, 10, 11, 12, 13, 14, 15,
   7, 4, 13, 1, 10, 6, 15, 3, 12, 0, 9, 5, 2, 14, 11, 8,
   3, 10, 14, 4, 9, 15, 8, 1, 2, 7, 0, 6, 13, 11, 5, 12,
   1, 9, 11, 10, 0, 8, 12, 4, 13, 3, 7, 15, 14, 5, 6, 2,
   4, 0, 5, 9, 7, 12, 2, 10, 14, 1, 3, 8, 11, 6, 15, 13]

def rightWords : List Nat :=
  [5, 14, 7, 0, 9, 2, 11, 4, 13, 6, 15, 8, 1, 10, 3, 12,
   6, 11, 3, 7, 0, 13, 5, 10, 14, 15, 8, 12, 4, 9, 1, 2,
   15, 5, 1, 3, 7, 14, 6, 9, 11, 8, 12, 2, 10, 0, 4, 13,
   8, 6, 4, 1, 3, 11, 15, 0, 5, 12, 2, 13, 9, 7, 10, 14,
   12, 15, 10, 4, 1, 5, 8, 7, 6, 2, 13, 14, 0, 3, 9, 11]

def leftShifts : List UInt32 :=
  [11, 14, 15, 12, 5, 8, 7, 9, 11, 13, 14, 15, 6, 7, 9, 8,
   7, 6, 8, 13, 11, 9, 7, 15, 7, 12, 15, 9, 11, 7, 13, 12,
   11, 13, 6, 7, 14, 9, 13, 15, 14, 8, 13, 6, 5, 12, 7, 5,
   11, 12, 14, 15, 14, 15, 9, 8, 9, 14, 5, 6, 8, 6, 5, 12,
   9, 15, 5, 11, 6, 8, 13, 12, 5, 12, 13, 14, 11, 8, 5, 6]

def rightShifts : List UInt32 :=
  [8, 9, 9, 11, 13, 15, 15, 5, 7, 7, 8, 11, 14, 14, 12, 6,
   9, 13, 15, 7, 12, 8, 9, 11, 7, 7, 12, 7, 6, 15, 13, 11,
   9, 7, 15, 11, 8, 6, 6, 14, 12, 13, 5, 14, 13, 13, 7, 5,
   15, 5, 8, 11, 14, 14, 6, 14, 6, 9, 12, 9, 12, 5, 15, 8,
   8, 5, 12, 9, 12, 5, 14, 6, 8, 13, 6, 5, 15, 13, 11, 11]

def leftConstants : List UInt32 := [0, 0x5a827999, 0x6ed9eba1, 0x8f1bbcdc, 0xa953fd4e]

def rightConstants : List UInt32 := [0x50a28be6, 0x5c4dd124, 0x6d703ef3, 0x7a6d76e9, 0]

def mix : Nat → UInt32 → UInt32 → UInt32 → UInt32
  | 0, x, y, z => x ^^^ y ^^^ z
  | 1, x, y, z => (x &&& y) ||| (~~~ x &&& z)
  | 2, x, y, z => (x ||| ~~~ y) ^^^ z
  | 3, x, y, z => (x &&& z) ||| (y &&& ~~~ z)
  | _, x, y, z => x ^^^ (y ||| ~~~ z)

def rotateLeft (x n : UInt32) : UInt32 := x <<< n ||| x >>> (32 - n)

def step (s : State) (f : UInt32) (w k r : UInt32) : State :=
  ⟨s.e, rotateLeft (s.a + f + w + k) r + s.e, s.b, rotateLeft s.c 10, s.d⟩

/-- Runs one line; `t` counts its steps, and `stretch` picks the function of step `t`. -/
def line (stretch : Nat → Nat) (constants words : List UInt32) :
    Nat → List Nat → List UInt32 → State → State
  | t, i :: is, r :: rs, s =>
    line stretch constants words (t + 1) is rs
      (step s (mix (stretch (t / 16)) s.b s.c s.d) (words.getD i 0) (constants.getD (t / 16) 0) r)
  | _, _, _, s => s

def word : Bytes → UInt32
  | [a, b, c, d] => d.toUInt32 <<< 24 ||| c.toUInt32 <<< 16 ||| b.toUInt32 <<< 8 ||| a.toUInt32
  | _ => 0

def words : Nat → Bytes → List UInt32
  | 0, _ => []
  | n + 1, b => word (b.take 4) :: words n (b.drop 4)

def absorb (s : State) (block : Bytes) : State :=
  let x := words 16 block
  let l := line (fun q => q) leftConstants x 0 leftWords leftShifts s
  let r := line (fun q => 4 - q) rightConstants x 0 rightWords rightShifts s
  ⟨s.b + l.c + r.d, s.c + l.d + r.e, s.d + l.e + r.a, s.e + l.a + r.b, s.a + l.b + r.c⟩

def absorbAll : Nat → State → Bytes → State
  | 0, s, _ => s
  | n + 1, s, b => absorbAll n (absorb s (b.take 64)) (b.drop 64)

def pad (message : Bytes) : Bytes :=
  message ++ 0x80 :: List.replicate ((119 - message.length % 64) % 64) 0 ++
    Bytes.ofNatLE 8 (message.length * 8)

def digest (s : State) : Bytes :=
  [s.a, s.b, s.c, s.d, s.e].flatMap fun x => Bytes.ofNatLE 4 x.toNat

def hash (message : Bytes) : Bytes :=
  let padded := pad message
  digest (absorbAll (padded.length / 64) initial padded)

def hash160 (message : Bytes) : Bytes := hash (Sha256.hash message)

theorem hash_length (message : Bytes) : (hash message).length = 20 := by
  simp [hash, digest, Bytes.ofNatLE_length]

end Countersign.Ripemd160
