/-!
# Amounts

An amount is a number of satoshis, a hundred million of which make a coin. In messages it is written
in coins: without decimals when it is a whole number of them, and with all eight otherwise.
-/

set_option autoImplicit false

namespace Countersign

abbrev Amount := UInt64

namespace Amount

def satsPerCoin : Nat := 100000000

def padLeft (width : Nat) (digits : String) : String :=
  String.ofList (List.replicate (width - digits.length) '0') ++ digits

def inCoins (a : Amount) : String :=
  let coins := toString (a.toNat / satsPerCoin)
  let rest := a.toNat % satsPerCoin
  if rest = 0 then s!"{coins} BTC" else s!"{coins}.{padLeft 8 (toString rest)} BTC"

end Amount

end Countersign
