import LedgerClient.Rlp.Header
import LedgerClient.Text.Utf8
/-!
# RLP items

Writing and reading items. A reader works on the bytes of one item, header included.

* `Rlp.data`, `Rlp.nat`, `Rlp.text`, `Rlp.list`   the item of a byte string, a number (its shortest
  big-endian bytes), a text (its UTF-8 bytes), and of a list of items;
* `Rlp.toData`, `Rlp.toNat`, `Rlp.toText`         back from an item;
* `Rlp.items payload`     the items of a list's payload, up to the first one that is malformed;
* `Rlp.exact b`           the header of `b` when `b` is exactly one item.
-/

namespace LedgerClient.Rlp

/-! ## Writing -/

def data (b : Bytes) : Bytes :=
  match b with
  | [x] => if x < 0x80 then [x] else header 0x80 1 ++ [x]
  | b => header 0x80 b.length ++ b

def nat (n : Nat) : Bytes := data (Bytes.ofNat n)

def text (s : String) : Bytes := data (Text.utf8 s)

/-- a list of items that are already written -/
def list (items : List Bytes) : Bytes := header 0xc0 items.flatten.length ++ items.flatten

/-! ## Reading -/

/-- the payload of a byte string; a byte below `0x80` must stand alone -/
def toData (item : Bytes) : Except Fault Bytes := do
  let h ← Header.parse item
  if h.isList then .error .expectedData
  else
    let payload := (item.drop h.size).take h.length
    match item, payload with
    | 0x81 :: _, [x] => if x < 0x80 then .error .invalidIndirection else return payload
    | _, _ => return payload

/-- a number of at most `w` bytes without leading zeros -/
def toNat (w : Nat) (item : Bytes) : Except Fault Nat := do
  let b ← toData item
  match b with
  | [] => return 0
  | x :: r =>
    if r.length + 1 ≤ max w 1 then
      if x = 0 then .error .invalidIndirection else return Bytes.toNat b
    else .error .tooBig

def toText (item : Bytes) : Except Fault String := do
  let b ← toData item
  match Text.ofUtf8? b with
  | some s => return s
  | none => .error .expectedData

/-- the first item of `b` and what follows it -/
def split? (b : Bytes) : Option (Bytes × Bytes) :=
  match Header.read b with
  | .ok h => some (b.take (h.size + h.length), b.drop (h.size + h.length))
  | .error _ => none

/-- `items` with a bound on their number -/
def itemsFrom : (fuel : Nat) → Bytes → List Bytes
  | 0, _ => []
  | fuel + 1, b =>
    match split? b with
    | some (item, rest) => item :: itemsFrom fuel rest
    | none => []

/-- the well formed items at the front of a list's payload -/
def items (payload : Bytes) : List Bytes := itemsFrom payload.length payload

/-- `b` is exactly one item -/
def exact (b : Bytes) : Except Fault Header := do
  let h ← Header.read b
  if h.size + h.length = b.length then return h else .error .trailingBytes

end LedgerClient.Rlp
