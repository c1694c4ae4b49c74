import LedgerClient.Bytes
/-!
# Base 64

`Base64.decode? cs` reads whole groups of four letters, the last one padded with `=`.
-/

namespace LedgerClient.Text.Base64

def letter? (c : Char) : Option Nat :=
  if 'A' ≤ c ∧ c ≤ 'Z' then some (c.toNat - 'A'.toNat)
  else if 'a' ≤ c ∧ c ≤ 'z' then some (c.toNat - 'a'.toNat + 26)
  else if '0' ≤ c ∧ c ≤ '9' then some (c.toNat - '0'.toNat + 52)
  else if c = '+' then some 62
  else if c = '/' then some 63
  else none

/-- the bytes of a group of two, three or four letters -/
def group? (cs : List Char) : Option Bytes :=
  (cs.mapM letter?).map fun ds =>
    (Bytes.fixed 3 (Digits.value 64 (ds ++ List.replicate (4 - ds.length) 0))).take (ds.length - 1)

def decode? : List Char → Option Bytes
  | [] => some []
  | [a, b, '=', '='] => group? [a, b]
  | [a, b, c, '='] => group? [a, b, c]
  | a :: b :: c :: d :: r => do
    let g ← group? [a, b, c, d]
    return g ++ (← decode? r)
  | _ => none

end LedgerClient.Text.Base64
