import LedgerClient.Contract.Table
import LedgerClient.Transaction.Form
/-!
# Typed method calls

* `ParamValue`           an argument of some kind;
* `PreparedCall.build`   checks arguments against a method and writes each as a text item;
* `DecodedCall.decode`   finds the method of a transaction's data in a table and reads the arguments.

Every argument becomes the hexadecimal text of its bytes, so that no text is taken for something
else. An address list is packed: the bodies of its addresses one after the other.
-/

namespace LedgerClient

inductive ParamValue where
  | str (s : String)
  | address (a : Address)
  | addressList (as : List Address)
  /-- decimal text -/
  | bigUint (s : String)
  | uint64 (n : UInt64)
  | uint32 (n : UInt32)
  | bool (b : Bool)
  | bytes (b : Bytes)
deriving DecidableEq

def ParamValue.kind : ParamValue → ParamKind
  | .str _ => .str
  | .address _ => .address
  | .addressList _ => .addressList
  | .bigUint _ => .bigUint
  | .uint64 _ => .uint64
  | .uint32 _ => .uint32
  | .bool _ => .bool
  | .bytes _ => .bytes

inductive CallError where
  | arity (method : String) (expected got : Nat)
  | kindMismatch (method : String) (index : Nat) (expected got : ParamKind)
  | badBigUint (index : Nat) (value : String)
  | unknownMethod (selector : Selector)
  | address (cause : AddressError)
  | item (cause : ItemError)
  | params (cause : ParamError)
deriving DecidableEq

def CallError.message : CallError → String
  | .arity m e g => m ++ " takes " ++ toString e ++ " arguments, got " ++ toString g
  | .kindMismatch m i e g =>
    "argument " ++ toString i ++ " of " ++ m ++ " must be " ++ e.name ++ ", got " ++ g.name
  | .badBigUint i v =>
    "argument " ++ toString i ++ " is not an unsigned decimal below 2^256: " ++ Text.quote v
  | .unknownMethod s => "unknown method id 0x" ++ s.hex
  | .address e => e.message
  | .item e => e.message
  | .params e => e.message

namespace ParamValue

def hexItem (b : Bytes) : String := "0x" ++ Text.Hex.encode b

/-- an unsigned decimal below `2 ^ 256`; no digits at all are zero -/
def bigUint? (s : String) : Option Nat :=
  ((s.toList.mapM (Text.digit? 10)).map (Digits.value 10)).bind (Text.bounded? (Nat.pow 2 256))

/-- the packed bodies of addresses as one item -/
def bodyItems (P : Primitives) (c : Chain) : List Address → Except CallError (List String)
  | [] => .ok []
  | a :: as =>
    match a.body P c.id with
    | .error e => .error (.address e)
    | .ok b => do
      let items ← bodyItems P c as
      return hexItem b :: items

/-- the text item of the argument at position `index` -/
def toItem (P : Primitives) (c : Chain) (index : Nat) : ParamValue → Except CallError String
  | .str s => .ok (hexItem (Text.utf8 s))
  | .address a =>
    match Address.validate P c.id a.text with
    | .ok () => .ok (hexItem (Text.utf8 a.text))
    | .error e => .error (.address e)
  | .addressList [] => .ok "0x"
  | .addressList as => (bodyItems P c as).map (String.intercalate ",")
  | .bigUint s =>
    match bigUint? s with
    | some n => .ok (hexItem (Bytes.ofNat n))
    | none => .error (.badBigUint index s)
  | .uint64 n => .ok (hexItem (Bytes.fixed 8 n.toNat))
  | .uint32 n => .ok (hexItem (Bytes.fixed 4 n.toNat))
  | .bool b => .ok (hexItem [if b then 1 else 0])
  | .bytes b => .ok (hexItem b)

end ParamValue

/-- the text form of a call -/
structure PreparedCall where
  selectorHex : String
  items : List String
deriving DecidableEq

namespace PreparedCall

variable (P : Primitives)

/-- the items of arguments whose first is at position `index` -/
def itemsFrom (c : Chain) (method : String) (index : Nat) :
    List ParamKind → List ParamValue → Except CallError (List String)
  | expected :: kinds, v :: vs =>
    if v.kind = expected then do
      let item ← v.toItem P c index
      let items ← itemsFrom c method (index + 1) kinds vs
      return item :: items
    else .error (.kindMismatch method index expected v.kind)
  | _, _ => .ok []

def build (c : Chain) (m : MethodSpec) (args : List ParamValue) : Except CallError PreparedCall :=
  if args.length = m.params.length then
    (itemsFrom P c m.name 0 m.params args).map fun items => ⟨m.selectorHex P, items⟩
  else .error (.arity m.name m.params.length args.length)

def methodCall (p : PreparedCall) (m : MethodSpec) : Except CallError MethodCall :=
  match Param.encode p.items with
  | .ok params => .ok ⟨m.selector P, params⟩
  | .error e => .error (.item e)

/-- a transaction form that sends the call to a contract -/
def toForm (p : PreparedCall) (nonce gasLimit : UInt64) (note : String) (contract : Address) :
    TransactionForm where
  nonce := Text.hexNumeral nonce.toNat
  gasLimit := Text.hexNumeral gasLimit.toNat
  note := note
  destination := contract.text
  selector := p.selectorHex
  items := p.items

end PreparedCall

/-- a call whose method is known -/
structure DecodedCall where
  method : MethodSpec
  args : List ParamValue
deriving DecidableEq

namespace DecodedCall

variable (P : Primitives)

def ofParams {α : Type} : Except ParamError α → Except CallError α
  | .ok a => .ok a
  | .error e => .error (.params e)

/-- the field at position `index` as an argument of a kind -/
def value (c : Chain) (l : ParamList) (index : Nat) : ParamKind → Except CallError ParamValue
  | .str => ofParams ((l.text index).map .str)
  | .address => do
    let s ← ofParams (l.text index)
    match Address.parse P c.id s with
    | .ok a => return .address a
    | .error e => .error (.address e)
  | .addressList => ofParams ((l.addresses index c.id).map .addressList)
  | .bigUint => ofParams ((l.bigUint index).map .bigUint)
  | .uint64 => ofParams ((l.uint index 8).map fun n => .uint64 (UInt64.ofNat n))
  | .uint32 => ofParams ((l.uint index 4).map fun n => .uint32 (UInt32.ofNat n))
  | .bool => ofParams ((l.bool index).map .bool)
  | .bytes => ofParams ((l.bytes index).map .bytes)

/-- arguments of the kinds, the first at position `index` -/
def valuesFrom (c : Chain) (l : ParamList) (index : Nat) :
    List ParamKind → Except CallError (List ParamValue)
  | [] => .ok []
  | k :: ks => do
    let v ← value P c l index k
    let vs ← valuesFrom c l (index + 1) ks
    return v :: vs

def decode (c : Chain) (t : ContractTable) (data : Bytes) : Except CallError DecodedCall :=
  match Record.decode (α := MethodCall) data with
  | .error f => .error (.params (.malformed (.item f)))
  | .ok call =>
    match t.withId? P call.selector with
    | none => .error (.unknownMethod call.selector)
    | some m => do
      let l ← ofParams (ParamList.decode call.params)
      ofParams (l.require m.params.length)
      let args ← valuesFrom P c l 0 m.params
      return ⟨m, args⟩

end DecodedCall

end LedgerClient
