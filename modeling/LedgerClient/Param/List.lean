import LedgerClient.Address
import LedgerClient.Param.Item
import LedgerClient.Param.Word
/-!
# Reading parameter lists

* `ParamList.decode b`   the fields of a list whose bytes are exactly one item;
* `ParamList.bytes`, `text`, `bigUint`, `uint`, `bool`, `addresses`   a field by position, read as
  what the caller takes it for;
* `ParamList.u64`, `u32`, `u16`, `u8`   a number in a word of its width.

Every reader checks the position first, then the width.
-/

namespace LedgerClient

structure ParamList where
  items : List Bytes
deriving DecidableEq

namespace ParamList

/-- the payload of every item -/
def payloads : List Bytes → Except Rlp.Fault (List Bytes)
  | [] => .ok []
  | item :: rest => do
    let b ← Rlp.toData item
    let bs ← payloads rest
    return b :: bs

def isList : Bytes → Bool
  | [] => false
  | x :: _ => 0xc0 ≤ x

def decode (b : Bytes) : Except ParamError ParamList :=
  if isList b then
    match Rlp.exact b with
    | .error f => .error (.malformed (.item f))
    | .ok h =>
      match payloads (Rlp.items (b.drop h.size)) with
      | .error f => .error (.malformed (.item f))
      | .ok bs => .ok ⟨bs⟩
  else .error (.malformed .notAList)

variable (l : ParamList)

/-- at least `n` fields -/
def require (n : Nat) : Except ParamError Unit :=
  if l.items.length < n then .error (.tooFew n l.items.length) else .ok ()

def bytes (index : Nat) : Except ParamError Bytes :=
  match l.items[index]? with
  | some b => .ok b
  | none => .error (.tooFew (index + 1) l.items.length)

def text (index : Nat) : Except ParamError String := do
  let b ← l.bytes index
  match Text.ofUtf8? b with
  | some s => return s
  | none => .error (.notText index)

/-- a field of at most `max` bytes -/
def narrow (index max : Nat) : Except ParamError Bytes := do
  let b ← l.bytes index
  if max < b.length then .error (.tooLong index b.length max) else return b

/-- an unsigned number below 2²⁵⁶, in decimal -/
def bigUint (index : Nat) : Except ParamError String := do
  let b ← l.narrow index 32
  return toString (Bytes.toNat b)

/-- an unsigned number of at most `width` bytes, and never more than eight -/
def uint (index width : Nat) : Except ParamError Nat := do
  let b ← l.narrow index (min width 8)
  return Word.ofBytes b

def u64 (index : Nat) : Except ParamError UInt64 := (l.uint index 8).map UInt64.ofNat

def u32 (index : Nat) : Except ParamError UInt32 := (l.uint index 4).map UInt32.ofNat

def u16 (index : Nat) : Except ParamError UInt16 := (l.uint index 2).map UInt16.ofNat

def u8 (index : Nat) : Except ParamError UInt8 := (l.uint index 1).map UInt8.ofNat

def bool (index : Nat) : Except ParamError Bool := do
  let n ← l.uint index 1
  return n != 0

/-- consecutive packed address bodies on a chain; their checksums are not looked at -/
def addresses (index : Nat) (chainId : String) : Except ParamError (List Address) := do
  let b ← l.bytes index
  if b.length % Address.packedLength ≠ 0 then
    .error (.misaligned index b.length Address.packedLength)
  else return (Bytes.pieces Address.packedLength b).map (Address.ofPacked chainId)

end ParamList

end LedgerClient
