/-! # Hexadecimal digits

`hexValue?` reads one hexadecimal digit, of either case.
-/

namespace GlobalTxn.Text

/-- The value of a hex digit, of either case. -/
def hexValue? (c : Char) : Option Nat :=
  if '0' ≤ c ∧ c ≤ '9' then some (c.toNat - '0'.toNat)
  else if 'a' ≤ c ∧ c ≤ 'f' then some (c.toNat - 'a'.toNat + 10)
  else if 'A' ≤ c ∧ c ≤ 'F' then some (c.toNat - 'A'.toNat + 10)
  else none

example : [hexValue? '7', hexValue? 'b', hexValue? 'F', hexValue? 'g'] =
    [some 7, some 11, some 15, none] := by decide

end GlobalTxn.Text
