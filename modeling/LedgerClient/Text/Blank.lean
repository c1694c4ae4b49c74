/-!
# Blanks at the ends of a text

`isBlank` is the Unicode property White_Space; `trim` drops blanks at both ends.
-/

namespace LedgerClient.Text

/-- the 25 code points of White_Space -/
def isBlank (c : Char) : Bool :=
  let n := c.toNat
  (0x9 ≤ n && n ≤ 0xD) || n == 0x20 || n == 0x85 || n == 0xA0 || n == 0x1680 ||
  (0x2000 ≤ n && n ≤ 0x200A) || n == 0x2028 || n == 0x2029 || n == 0x202F || n == 0x205F ||
  n == 0x3000

def trimStartChars (cs : List Char) : List Char := cs.dropWhile isBlank

def trimChars (cs : List Char) : List Char :=
  (trimStartChars (trimStartChars cs).reverse).reverse

/-- `s` without the blanks in front -/
def trimStart (s : String) : String := String.ofList (trimStartChars s.toList)

/-- `s` without the blanks at both ends -/
def trim (s : String) : String := String.ofList (trimChars s.toList)

end LedgerClient.Text
