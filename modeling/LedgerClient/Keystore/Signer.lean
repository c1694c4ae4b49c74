import LedgerClient.Address
import LedgerClient.Key
import LedgerClient.Keystore.Blob
/-!
# Signers

Envelopes are signed through a `Signer`: the caller names a key and gives its passphrase, and gets
a public key or a signature. Seeds stay behind it.

* `KeyringError`   why a named key cannot be used or stored;
* `Signer`         public keys and signatures of named keys;
* `KeyRef`         a name with its passphrase, shown without the passphrase.
-/

namespace LedgerClient

/-- what a file operation reports -/
inductive FileError where
  | nameTooLong
  | isFolder
  | absent
  | present
  | notFolder
deriving DecidableEq

def FileError.message : FileError → String
  | .nameTooLong => "File name too long (os error 36)"
  | .isFolder => "Is a directory (os error 21)"
  | .absent => "No such file or directory (os error 2)"
  | .present => "File exists (os error 17)"
  | .notFolder => "Not a directory (os error 20)"

inductive KeyringError where
  | notFound (name : String)
  | exists (name : String)
  | invalidName (name : String)
  | wrongPassphrase (name : String)
  | blob (cause : BlobError)
  | key (cause : KeyError)
  | file (cause : FileError)
deriving DecidableEq

def KeyringError.message : KeyringError → String
  | .notFound name => "no key named " ++ Text.quote name
  | .exists name => "a key named " ++ Text.quote name ++ " already exists"
  | .invalidName name => "invalid key name " ++ Text.quote name
  | .wrongPassphrase name => "wrong passphrase for key " ++ Text.quote name
  | .blob e => "keystore decryption failed: " ++ e.message
  | .key e => "stored key is malformed: " ++ e.message
  | .file e => "keystore I/O error: " ++ e.message

structure KeyRef where
  name : String
  passphrase : String
deriving DecidableEq

/-- the passphrase is never shown -/
def KeyRef.shown (k : KeyRef) : String :=
  "SigningKeyRef \x7b name: " ++ Text.quote k.name ++ ", passphrase: " ++
    Text.quote "<redacted>" ++ " \x7d"

structure Signer where
  publicKey : KeyRef → Except KeyringError PublicKey
  sign : KeyRef → Bytes → Except KeyringError SignatureRecord

/-- the account of a named key -/
def Signer.address (P : Primitives) (s : Signer) (chainId : String) (key : KeyRef) :
    Except KeyringError Address :=
  (s.publicKey key).map (Address.ofPublicKey P chainId)

end LedgerClient
