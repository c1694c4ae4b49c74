import LedgerClient.Keystore.Directory
import LedgerClient.Keystore.Ring
/-!
# Keys on disk

A vault is a directory with one encrypted file `<name>.wal` per key.

* `Vault.fileOf? name`    the file of a key; a name has letters, digits, `-` and `_` only;
* `Vault.nameOf? file`    the key name that a file shows in the list;
* `Vault.importKey`       stores a key in the sealed format, `importPlain` in the plain one;
* `Vault.load`            decrypts a key; nothing is kept between operations;
* `Vault.list`            the names of all key files, sorted.

Storing never replaces a file.
-/

namespace LedgerClient.Vault

variable (P : Primitives)

def extension : List Char := ['.', 'w', 'a', 'l']

def isNameChar (c : Char) : Bool := c.isAlphanum || c = '-' || c = '_'

def isName (name : String) : Bool := !name.toList.isEmpty && name.toList.all isNameChar

def fileName (name : String) : String := String.ofList (name.toList ++ extension)

def fileOf? (name : String) : Except KeyringError String :=
  if isName name then .ok (fileName name) else .error (.invalidName name)

/-- what stands before the extension, if that is not empty -/
def nameOf? (file : String) : Option String :=
  let cs := file.toList
  let stem := cs.take (cs.length - extension.length)
  if stem ≠ [] ∧ cs.drop (cs.length - extension.length) = extension then some (String.ofList stem)
  else none

/-- the names of every entry that looks like a key file -/
def list (d : Directory) : List String := KeyRing.sortedNames (d.names.filterMap nameOf?)

/-- the nonce must be fresh -/
def importKey (nonce : Octets 12) (key : KeyRef) (k : Keypair) (d : Directory) :
    Except KeyringError Unit × Directory :=
  match fileOf? key.name with
  | .error e => (.error e, d)
  | .ok file =>
    match KeyBlob.encryptSealed P nonce k.seed.bytes key.passphrase none with
    | .error e => (.error (.blob e), d)
    | .ok blob =>
      match d.create file blob with
      | .ok d' => (.ok (), d')
      | .error .present => (.error (.exists key.name), d)
      | .error e => (.error (.file e), d)

def importPlain (key : KeyRef) (k : Keypair) (d : Directory) :
    Except KeyringError Unit × Directory :=
  match fileOf? key.name with
  | .error e => (.error e, d)
  | .ok file =>
    if d.exists? file then (.error (.exists key.name), d)
    else
      match KeyBlob.encryptPlain P k.seed.bytes key.passphrase none with
      | .error e => (.error (.blob e), d)
      | .ok blob =>
        match d.write file blob with
        | .ok d' => (.ok (), d')
        | .error e => (.error (.file e), d)

/-- stores a key that was generated from `k`, and returns its public half -/
def createKey (nonce : Octets 12) (key : KeyRef) (k : Keypair) (d : Directory) :
    Except KeyringError PublicKey × Directory :=
  match importKey P nonce key k d with
  | (.ok (), d') => (.ok (k.publicKey P), d')
  | (.error e, d') => (.error e, d')

/-- a blob that does not open under the passphrase counts as a wrong passphrase -/
def blobError (name : String) : BlobError → KeyringError
  | .magic => .wrongPassphrase name
  | .notAuthentic => .wrongPassphrase name
  | e => .blob e

def load (key : KeyRef) (d : Directory) : Except KeyringError Keypair := do
  let file ← fileOf? key.name
  match d.read file with
  | .error .absent => .error (.notFound key.name)
  | .error e => .error (.file e)
  | .ok blob =>
    match KeyBlob.decrypt P blob key.passphrase none with
    | .error e => .error (blobError key.name e)
    | .ok seed =>
      match Keypair.ofBytes seed with
      | .ok k => .ok k
      | .error e => .error (.key e)

def signer (d : Directory) : Signer where
  publicKey key := (load P key d).map (·.publicKey P)
  sign key message := (load P key d).map (·.sign P message)

end LedgerClient.Vault
