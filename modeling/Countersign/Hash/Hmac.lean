import Countersign.Hash.Sha256

/-!
# HMAC over SHA-256

A key of any length is brought to one block: a longer one is hashed first, a shorter one is filled
with zeros. The block masks an inner and an outer hash.
-/

set_option autoImplicit false

namespace Countersign.Hmac

def block (key : Bytes) : Bytes :=
  let k := if key.length > 64 then Sha256.hash key else key
  k ++ List.replicate (64 - k.length) 0

def mac (key message : Bytes) : Bytes :=
  let k := block key
  Sha256.hash (k.map (· ^^^ 0x5c) ++ Sha256.hash (k.map (· ^^^ 0x36) ++ message))

/-- So no key is too long or too short to be used. -/
theorem block_length (key : Bytes) : (block key).length = 64 := by
  have fits : (if key.length > 64 then Sha256.hash key else key).length ≤ 64 := by
    split
    · simp [Sha256.hash_length]
    · omega
  rw [block, List.length_append, List.length_replicate]
  omega

theorem mac_length (key message : Bytes) : (mac key message).length = 32 := Sha256.hash_length _

end Countersign.Hmac
