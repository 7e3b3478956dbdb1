import Countersign.Json.Value

/-!
# Writing JSON

Compact text: no white space, and only quotes, backslashes and control bytes escaped, each with its
short form where it has one.
-/

set_option autoImplicit false

namespace Countersign.Json

def hexDigit (n : Nat) : UInt8 := UInt8.ofNat (if n < 10 then 0x30 + n else 0x57 + n)

def escapeByte (b : UInt8) : Bytes :=
  if b = 0x22 then [0x5c, 0x22]
  else if b = 0x5c then [0x5c, 0x5c]
  else if b = 0x08 then [0x5c, 0x62]
  else if b = 0x09 then [0x5c, 0x74]
  else if b = 0x0a then [0x5c, 0x6e]
  else if b = 0x0c then [0x5c, 0x66]
  else if b = 0x0d then [0x5c, 0x72]
  else if b < 0x20 then [0x5c, 0x75, 0x30, 0x30, hexDigit (b.toNat / 16), hexDigit (b.toNat % 16)]
  else [b]

def quote (content : Bytes) : Bytes := 0x22 :: content.flatMap escapeByte ++ [0x22]

mutual

def encode : Json → Bytes
  | .null => Utf8.encode "null"
  | .bool true => Utf8.encode "true"
  | .bool false => Utf8.encode "false"
  | .integer n => Utf8.encode (toString n)
  | .decimal literal => literal
  | .string content => quote content
  | .array [] => [0x5b, 0x5d]
  | .array (v :: vs) => 0x5b :: (encode v ++ encodeItems vs)
  | .object [] => [0x7b, 0x7d]
  | .object ((n, v) :: ms) => 0x7b :: (quote n ++ 0x3a :: (encode v ++ encodeMembers ms))

def encodeItems : List Json → Bytes
  | [] => [0x5d]
  | v :: vs => 0x2c :: (encode v ++ encodeItems vs)

def encodeMembers : List (Bytes × Json) → Bytes
  | [] => [0x7d]
  | (n, v) :: ms => 0x2c :: (quote n ++ 0x3a :: (encode v ++ encodeMembers ms))

end

def compact (v : Json) : String := (Utf8.decode? v.encode).getD ""

end Countersign.Json
