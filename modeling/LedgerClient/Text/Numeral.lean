import LedgerClient.Digits
/-!
# Numerals

Reading unsigned numbers written in a base up to sixteen.

* `digit? b c`      the value of the digit `c` in base `b`, letters in either case;
* `numeral? b cs`   the value of one or more digits;
* `bounded? n x`    `x` if it is below `n`.
-/

namespace LedgerClient.Text

/-- the value of a digit in base `b ≤ 16` -/
def digit? (b : Nat) (c : Char) : Option Nat :=
  let v :=
    if '0' ≤ c ∧ c ≤ '9' then some (c.toNat - '0'.toNat)
    else if 'a' ≤ c ∧ c ≤ 'f' then some (c.toNat - 'a'.toNat + 10)
    else if 'A' ≤ c ∧ c ≤ 'F' then some (c.toNat - 'A'.toNat + 10)
    else none
  v.filter (· < b)

/-- one or more digits; leading zeros are allowed -/
def numeral? (b : Nat) : List Char → Option Nat
  | [] => none
  | cs => (cs.mapM (digit? b)).map (Digits.value b)

def bounded? (bound : Nat) (x : Nat) : Option Nat := if x < bound then some x else none

/-- what follows `p` in `s`, if `s` starts with `p` -/
def dropLead? (p s : List Char) : Option (List Char) :=
  if p.isPrefixOf s then some (s.drop p.length) else none

/-- `s` without the leading `p`, or `s` itself -/
def dropLead (p s : List Char) : List Char := (dropLead? p s).getD s

end LedgerClient.Text
