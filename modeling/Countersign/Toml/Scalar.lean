import Countersign.Text.Decimal
import Countersign.Text.Utf8
import Countersign.Toml.Value

/-!
# Numbers, dates and booleans

A value that is no text, array or table is one run of letters, digits and a few signs, save that a date
and a time may stand apart by a space. Digits may be parted by single underscores. Integers have
sixty-four bits and a sign; a float that rounds to positive infinity is refused.
-/

set_option autoImplicit false

namespace Countersign.Toml

def isTokenChar (c : Char) : Bool :=
  c.isAlphanum || c == '+' || c == '-' || c == '_' || c == '.' || c == ':'

def isGrouped (isDigit : Char → Bool) : List Char → Bool
  | [] => false
  | [c] => isDigit c
  | c :: '_' :: r => isDigit c && isGrouped isDigit r
  | c :: r => isDigit c && isGrouped isDigit r

def digitValue (c : Char) : Nat :=
  if c.isDigit then c.toNat - 48 else c.toLower.toNat - 87

def natOfDigits (base : Nat) (ds : List Char) : Nat :=
  (ds.filter (· != '_')).foldl (fun n c => n * base + digitValue c) 0

def isHexDigit (c : Char) : Bool :=
  c.isDigit || ('a' ≤ c && c ≤ 'f') || ('A' ≤ c && c ≤ 'F')

def isOctalDigit (c : Char) : Bool := '0' ≤ c && c ≤ '7'

def isBinaryDigit (c : Char) : Bool := c == '0' || c == '1'

def ofNat? (n : Nat) : Option Int := if n < integerBound then some n else none

def decimal? (cs : List Char) : Option Nat :=
  if isGrouped Char.isDigit cs && (cs.head? != some '0' || cs.length == 1) then
    some (natOfDigits 10 cs)
  else none

def based? (base : Nat) (isDigit : Char → Bool) (cs : List Char) : Option Int :=
  if isGrouped isDigit cs then ofNat? (natOfDigits base cs) else none

def integer? : List Char → Option Int
  | '0' :: 'x' :: r => based? 16 isHexDigit r
  | '0' :: 'o' :: r => based? 8 isOctalDigit r
  | '0' :: 'b' :: r => based? 2 isBinaryDigit r
  | '-' :: r => (decimal? r).bind fun n => if n ≤ integerBound then some (-Int.ofNat n) else none
  | '+' :: r => (decimal? r).bind ofNat?
  | r => (decimal? r).bind ofNat?

def withoutSign : List Char → List Char
  | '+' :: r => r
  | '-' :: r => r
  | r => r

def isExponent : List Char → Bool
  | 'e' :: r => isGrouped Char.isDigit (withoutSign r)
  | 'E' :: r => isGrouped Char.isDigit (withoutSign r)
  | _ => false

def isFraction (cs : List Char) : Bool :=
  isGrouped Char.isDigit (cs.takeWhile fun c => c.isDigit || c == '_') &&
    match cs.dropWhile fun c => c.isDigit || c == '_' with
    | [] => true
    | r => isExponent r

def isPlainFloat (cs : List Char) : Bool :=
  let whole := cs.takeWhile fun c => c.isDigit || c == '_'
  (decimal? whole).isSome &&
    match cs.dropWhile fun c => c.isDigit || c == '_' with
    | '.' :: r => isFraction r
    | r => isExponent r

def isFloat (cs : List Char) : Bool :=
  let unsigned := withoutSign cs
  unsigned == ['i', 'n', 'f'] || unsigned == ['n', 'a', 'n'] ||
    (isPlainFloat unsigned &&
      (cs.head? == some '-' || Decimal.fitsFloat (Utf8.encode (String.ofList unsigned))))

def isPair (most : Nat) (a b : Char) : Bool :=
  a.isDigit && b.isDigit && natOfDigits 10 [a, b] ≤ most

def isLeap (year : Nat) : Bool := year % 4 == 0 && (year % 100 != 0 || year % 400 == 0)

def daysIn (year month : Nat) : Nat :=
  if month = 2 then (if isLeap year then 29 else 28)
  else if [4, 6, 9, 11].contains month then 30
  else 31

def isDate : List Char → Bool
  | [y1, y2, y3, y4, '-', m1, m2, '-', d1, d2] =>
    let year := [y1, y2, y3, y4]
    let month := natOfDigits 10 [m1, m2]
    year.all Char.isDigit && isPair 12 m1 m2 && 1 ≤ month &&
      isPair (daysIn (natOfDigits 10 year) month) d1 d2 && 1 ≤ natOfDigits 10 [d1, d2]
  | _ => false

def afterTime? : List Char → Option (List Char)
  | h1 :: h2 :: ':' :: m1 :: m2 :: ':' :: s1 :: s2 :: r =>
    if isPair 23 h1 h2 && isPair 59 m1 m2 && isPair 60 s1 s2 then
      match r with
      | '.' :: ds => if (ds.head?.any Char.isDigit) then some (ds.dropWhile Char.isDigit) else none
      | r => some r
    else none
  | _ => none

def isOffset : List Char → Bool
  | [] => true
  | ['Z'] => true
  | ['z'] => true
  | [sign, h1, h2, ':', m1, m2] => (sign == '+' || sign == '-') && isPair 23 h1 h2 && isPair 59 m1 m2
  | _ => false

def isDatedTime (cs : List Char) : Bool := (afterTime? cs).any isOffset

def isMoment (cs : List Char) : Bool :=
  isDate cs || afterTime? cs == some [] ||
    (isDate (cs.take 10) &&
      match cs.drop 10 with
      | 'T' :: time => isDatedTime time
      | 't' :: time => isDatedTime time
      | _ => false)

def ofToken? (cs : List Char) : Option Value :=
  if cs = ['t', 'r', 'u', 'e'] then some (.boolean true)
  else if cs = ['f', 'a', 'l', 's', 'e'] then some (.boolean false)
  else if isMoment cs then some (.moment (String.ofList cs))
  else if isFloat cs then some (.float (String.ofList cs))
  else (integer? cs).map .integer

def scalar? (cs : List Char) : Option (Value × List Char) :=
  let token := cs.takeWhile isTokenChar
  let rest := cs.dropWhile isTokenChar
  let time := (rest.drop 1).takeWhile isTokenChar
  if isDate token && rest.head? == some ' ' && isDatedTime time then
    some (.moment (String.ofList (token ++ ' ' :: time)), rest.drop (time.length + 1))
  else (ofToken? token).map fun v => (v, rest)

end Countersign.Toml
