import LedgerClient.Json.Fields
import LedgerClient.Text.Blank
/-!
# Whole numbers given as numbers or as text

Nodes report heights and nonces either way.

* `Rpc.decimal? s`     the number of a text: blanks around it, a plus sign or none, digits;
* `Rpc.lenient`        reads an unsigned number of 64 bits from a number or such a text.
-/

namespace LedgerClient.Rpc

/-- an unsigned decimal below `2 ^ 64`, a plus sign allowed -/
def decimal? (s : String) : Option Nat :=
  (Text.numeral? 10 (Text.dropLead ['+'] (Text.trimChars s.toList))).bind
    (Text.bounded? (Nat.pow 2 64))

def lenient : Document.Reader Nat
  | _, .string (some s) => decimal? s
  | room, d => Document.unsigned 64 room d

end LedgerClient.Rpc
