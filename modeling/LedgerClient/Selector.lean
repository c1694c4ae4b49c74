import LedgerClient.Primitives
import LedgerClient.Text.Hex
import LedgerClient.Text.Numeral
/-!
# Method selectors

A method is named on the wire by the first four bytes of its prototype's digest.

* `Selector.ofPrototype`   the selector of a prototype;
* `Selector.parse?`        four hexadecimal bytes, `0x` in front or not;
* `Selector.bytes`, `Selector.hex`   the four bytes, and their text.
-/

namespace LedgerClient

/-- a selector by its big-endian number -/
structure Selector where
  id : UInt32
deriving DecidableEq, Inhabited

namespace Selector

def ofBytes (b : Bytes) : Selector := ⟨UInt32.ofNat (Bytes.toNat b)⟩

def ofPrototype (P : Primitives) (prototype : String) : Selector :=
  ofBytes ((P.digest (Text.utf8 prototype)).take 4)

def bytes (s : Selector) : Bytes := Bytes.fixed 4 s.id.toNat

def hex (s : Selector) : String := Text.Hex.encode s.bytes

def parse? (text : String) : Option Selector :=
  match Text.Hex.decode (String.ofList (Text.dropLead ['0', 'x'] text.toList)) with
  | .ok b => if b.length = 4 then some (ofBytes b) else none
  | .error _ => none

end Selector

end LedgerClient
