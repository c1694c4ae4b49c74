import LedgerClient.Param.Error
import LedgerClient.Rlp.Item
import LedgerClient.Text.Fields
/-!
# Writing parameter lists

A call argument is given as a text item. An item that starts with `0x` is hexadecimal, in pieces
between commas if there are any; every other item stands for its UTF-8 bytes.

* `Param.itemBytes i s`    the bytes of the item `s` at position `i`;
* `Param.listOf bs`        the parameter list of byte strings;
* `Param.encode items`     the parameter list of text items, or the first faulty item.
-/

namespace LedgerClient.Param

def hexLead : List Char := ['0', 'x']

/-- one hexadecimal piece, `0x` in front or not -/
def pieceBytes (index : Nat) (piece : List Char) : Except ItemError Bytes :=
  match Text.Hex.decode (String.ofList (Text.dropLead hexLead piece)) with
  | .ok b => .ok b
  | .error e => .error (.invalidHex index e)

/-- the pieces one after the other -/
def piecesBytes (index : Nat) : List (List Char) → Except ItemError Bytes
  | [] => .ok []
  | piece :: rest => do
    let b ← pieceBytes index piece
    let bs ← piecesBytes index rest
    return b ++ bs

def itemBytes (index : Nat) (item : String) : Except ItemError Bytes :=
  match Text.dropLead? hexLead item.toList with
  | none => .ok (Text.utf8 item)
  | some body =>
    if ',' ∈ item.toList then piecesBytes index (Text.fields ',' item.toList)
    else
      match Text.Hex.decode (String.ofList body) with
      | .ok b => .ok b
      | .error e => .error (.invalidHex index e)

/-- the bytes of items whose first is at position `index` -/
def itemsBytesFrom (index : Nat) : List String → Except ItemError (List Bytes)
  | [] => .ok []
  | item :: rest => do
    let b ← itemBytes index item
    let bs ← itemsBytesFrom (index + 1) rest
    return b :: bs

def itemsBytes (items : List String) : Except ItemError (List Bytes) := itemsBytesFrom 0 items

def listOf (bs : List Bytes) : Bytes := Rlp.list (bs.map Rlp.data)

def encode (items : List String) : Except ItemError Bytes := (itemsBytes items).map listOf

end LedgerClient.Param
