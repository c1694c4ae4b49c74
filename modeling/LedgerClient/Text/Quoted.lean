import LedgerClient.Text.Plain
/-!
# Quoted text

How texts and characters are quoted inside messages.

* `quote s`       `s` between double quotes;
* `quoteChar c`   `c` between single quotes.

A tab, line feed, carriage return, NUL, backslash and the quote itself have short escapes; every
other character that is not plain is written `\u{…}` with its lower-case hexadecimal code.
-/

namespace LedgerClient.Text

/-- lower-case hexadecimal, without leading zeros -/
def hexNumeral (n : Nat) : String := String.ofList (Nat.toDigits 16 n)

/-- one character between the quotes `q` -/
def escapeIn (q c : Char) : String :=
  if c = '\x00' then "\\0"
  else if c = '\t' then "\\t"
  else if c = '\r' then "\\r"
  else if c = '\n' then "\\n"
  else if c = '\\' then "\\\\"
  else if c = q then String.ofList ['\\', q]
  else if isPlain c then String.ofList [c]
  else "\\u" ++ "\x7b" ++ hexNumeral c.toNat ++ "\x7d"

def quote (s : String) : String :=
  "\"" ++ String.join (s.toList.map (escapeIn '"')) ++ "\""

def quoteChar (c : Char) : String := "'" ++ escapeIn '\'' c ++ "'"

end LedgerClient.Text
