import Countersign.Bytes

/-!
# Text as bytes

A text is written in UTF-8. `Utf8.encode` writes it and `Utf8.decode?` reads exactly the byte strings
that some text writes.
-/

set_option autoImplicit false

namespace Countersign.Utf8

def encode (s : String) : Bytes := s.toList.flatMap String.utf8EncodeChar

def decode? (b : Bytes) : Option String := String.fromUTF8? b.toByteArray

theorem encode_append (s t : String) : encode (s ++ t) = encode s ++ encode t := by
  simp [encode, String.toList_append]

theorem toByteArray_encode (s : String) : (encode s).toByteArray = s.toByteArray := by
  rw [encode, ← List.utf8Encode, String.utf8Encode_toList]

theorem decode?_encode (s : String) : decode? (encode s) = some s := by
  simp only [decode?, toByteArray_encode, String.fromUTF8?]
  rw [dif_pos s.isValidUTF8]
  rfl

end Countersign.Utf8
