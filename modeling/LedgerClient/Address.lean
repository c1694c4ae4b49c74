import LedgerClient.Primitives
import LedgerClient.Text.Base58
import LedgerClient.Text.Numeral
/-!
# Addresses

An address is the chain id followed by the base 58 text of a body and its checksum: the first four
bytes of the body's short digest.

* `Address.ofBody`                      the address of a body;
* `Address.ofPublicKey`, `ofContract`   the address of an account and of a contract;
* `Address.validate`                    checks chain id and checksum; bodies may have any length;
* `Address.parse`, `Address.body`       a checked address, and the bytes behind it.
-/

namespace LedgerClient

/-- the text of an address, checked or not -/
structure Address where
  text : String
deriving DecidableEq, Inhabited

inductive AddressError where
  | otherChain (chainId address : String)
  | empty
  | checksum
deriving DecidableEq

def AddressError.message : AddressError → String
  | .otherChain chainId address =>
    "address " ++ address ++ " does not start with chain id " ++ chainId
  | .empty => "address body decodes to zero bytes"
  | .checksum => "address checksum mismatch"

namespace Address

variable (P : Primitives)

def checksumLength : Nat := 4

/-- the bytes of an account's or contract's body with its checksum -/
def packedLength : Nat := 24

def checksum (body : Bytes) : Bytes := (P.shortDigest body).take checksumLength

/-- body and checksum behind the chain id -/
def ofBody (chainId : String) (body : Bytes) : Address :=
  ⟨chainId ++ Text.Base58.encode (body ++ checksum P body)⟩

/-- body and checksum as they stand -/
def ofPacked (chainId : String) (packed : Bytes) : Address :=
  ⟨chainId ++ Text.Base58.encode packed⟩

def ofPublicKey (chainId : String) (key : PublicKey) : Address :=
  ofBody P chainId (P.shortDigest (P.digest key.bytes))

/-- what is hashed for a contract's address -/
def contractSource (chainId owner name version : String) : Bytes :=
  Text.utf8 chainId ++ Text.utf8 name ++ Text.utf8 version ++ Text.utf8 owner

def ofContract (chainId : String) (owner : Address) (name version : String) : Address :=
  ofBody P chainId (P.shortDigest (P.digest (contractSource chainId owner.text name version)))

/-- the text behind the chain id -/
def tail? (chainId address : String) : Option String :=
  (Text.dropLead? chainId.toList address.toList).map String.ofList

/-- the bytes behind the chain id, checksum included, when they are in order -/
def packed (chainId address : String) : Except AddressError Bytes :=
  match tail? chainId address with
  | none => .error (.otherChain chainId address)
  | some rest =>
    match Text.Base58.decode rest with
    | .error _ => .error .empty
    | .ok [] => .error .empty
    | .ok b =>
      if b.length < checksumLength then .error .checksum
      else
        let body := b.take (b.length - checksumLength)
        if b.drop (b.length - checksumLength) = checksum P body then .ok b else .error .checksum

def validate (chainId address : String) : Except AddressError Unit :=
  (packed P chainId address).map fun _ => ()

def parse (chainId text : String) : Except AddressError Address :=
  (packed P chainId text).map fun _ => ⟨text⟩

/-- the bytes that packed address lists carry -/
def body (chainId : String) (a : Address) : Except AddressError Bytes := packed P chainId a.text

end Address

end LedgerClient
