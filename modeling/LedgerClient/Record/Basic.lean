import LedgerClient.Rlp.Item
/-!
# Records

A record is written as an RLP list with a fixed number of fields.

* `Record α`          how the fields of an `α` are written and read;
* `Record.encode x`   the bytes of a record;
* `Record.decode b`   the record whose bytes are exactly `b`.
-/

namespace LedgerClient

class Record (α : Type) where
  arity : Nat
  /-- the fields as written items -/
  write : α → List Bytes
  /-- reads `arity` items -/
  read : List Bytes → Except Rlp.Fault α

namespace Record

variable {α : Type} [Record α]

def encode (x : α) : Bytes := Rlp.list (write x)

def decode (b : Bytes) : Except Rlp.Fault α := do
  let h ← Rlp.exact b
  if h.isList then
    let items := Rlp.items (b.drop h.size)
    if items.length = arity α then read items else .error .wrongListLength
  else .error .expectedList

end Record

end LedgerClient
