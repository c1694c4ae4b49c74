import LedgerClient.Address
import LedgerClient.Key
import LedgerClient.Record.Basic
import LedgerClient.Selector
/-!
# The records of the ledger

* `Transaction`       nonce, gas limit, note, destination, data;
* `Query`             one key;
* `MethodCall`        the selector and the parameter list, the data of a transaction;
* `SignatureRecord`   the public key and the signature.

The destination of a transaction is read before its other fields, so its faults come first.
-/

namespace LedgerClient

structure Transaction where
  nonce : UInt64
  gasLimit : UInt64
  note : String
  destination : Address
  data : Bytes
deriving DecidableEq

structure Query where
  key : String
deriving DecidableEq

structure MethodCall where
  selector : Selector
  params : Bytes
deriving DecidableEq

instance : Record Transaction where
  arity := 5
  write t := [Rlp.nat t.nonce.toNat, Rlp.nat t.gasLimit.toNat, Rlp.text t.note,
    Rlp.text t.destination.text, Rlp.data t.data]
  read
    | [nonce, gasLimit, note, destination, data] => do
      let destination ← Rlp.toText destination
      let nonce ← Rlp.toNat 8 nonce
      let gasLimit ← Rlp.toNat 8 gasLimit
      let note ← Rlp.toText note
      let data ← Rlp.toData data
      return ⟨UInt64.ofNat nonce, UInt64.ofNat gasLimit, note, ⟨destination⟩, data⟩
    | _ => .error .wrongListLength

instance : Record Query where
  arity := 1
  write q := [Rlp.text q.key]
  read
    | [key] => do
      let key ← Rlp.toText key
      return ⟨key⟩
    | _ => .error .wrongListLength

instance : Record MethodCall where
  arity := 2
  write c := [Rlp.nat c.selector.id.toNat, Rlp.data c.params]
  read
    | [selector, params] => do
      let id ← Rlp.toNat 4 selector
      let params ← Rlp.toData params
      return ⟨⟨UInt32.ofNat id⟩, params⟩
    | _ => .error .wrongListLength

instance : Record SignatureRecord where
  arity := 2
  write s := [Rlp.data s.publicKey.bytes, Rlp.data s.signature.bytes]
  read
    | [key, signature] => do
      let key ← Rlp.toData key
      let signature ← Rlp.toData signature
      match Octets.ofBytes? 32 key, Octets.ofBytes? 64 signature with
      | some key, some signature => return ⟨key, signature⟩
      | none, _ => .error .publicKeySize
      | some _, none => .error .signatureSize
    | _ => .error .wrongListLength

end LedgerClient
