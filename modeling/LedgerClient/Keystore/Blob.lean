import LedgerClient.Cipher.Blockwise
import LedgerClient.Primitives
import LedgerClient.Text.Utf8
/-!
# Key blobs

How a secret is kept at rest. Both formats frame it first: a magic, the length in four bytes, and
the secret.

* plain format: the frame, filled with zeros to whole blocks, each block encrypted on its own;
* sealed format: a tag, a nonce, and the frame under authenticated encryption.

* `KeyBlob.encryptPlain`, `encryptSealed`   write the two formats;
* `KeyBlob.decryptPlain`, `decryptSealed`   open them;
* `KeyBlob.decrypt`   opens either: a blob with the tag is tried as sealed first, and falls
  back to the plain format if its length allows it.

A password and a keyword take part in every key; a missing keyword counts as the empty one.
-/

namespace LedgerClient

inductive BlobError where
  | empty
  | notAligned (length : Nat)
  | magic
  | tooShort
  | notAuthentic
  | notEncrypted
  | tooLarge (length : Nat)
deriving DecidableEq

def BlobError.message : BlobError → String
  | .empty => "keystore blob is empty"
  | .notAligned n =>
    "keystore blob is " ++ toString n ++ " bytes, not a multiple of the 16-byte block size"
  | .magic => "keystore magic mismatch: wrong password or corrupted blob"
  | .tooShort => "keystore blob is too short for its declared length"
  | .notAuthentic => "keystore authentication failed: wrong password or corrupted blob"
  | .notEncrypted => "keystore encryption failed"
  | .tooLarge n =>
    "plaintext of " ++ toString n ++ " bytes does not fit the 32-bit length prefix"

namespace KeyBlob

variable (P : Primitives)

/-- `BCBK` -/
def magic : Bytes := [0x42, 0x43, 0x42, 0x4b]

/-- `KSv2` -/
def sealedTag : Bytes := [0x4b, 0x53, 0x76, 0x32]

/-- mixed into every key -/
def salt : Bytes := Text.utf8 "bcb-wallet-keystore"

def headerLength : Nat := 8

def blockLength : Nat := 16

def nonceLength : Nat := 12

/-- the shortest blob that can be sealed: tag, nonce and authentication tag -/
def sealedMinimum : Nat := 32

/-! ## The frame -/

def framed (secret : Bytes) : Except BlobError Bytes :=
  if secret.length < Nat.pow 2 32 then .ok (magic ++ Bytes.fixed 4 secret.length ++ secret)
  else .error (.tooLarge secret.length)

/-- the declared number of bytes behind the magic; what follows them is dropped -/
def unframed (b : Bytes) : Except BlobError Bytes :=
  if b.take 4 ≠ magic then .error .magic
  else if b.length < headerLength then .error .tooShort
  else
    let n := Bytes.toNat ((b.drop 4).take 4)
    let body := b.drop headerLength
    if body.length < n then .error .tooShort else .ok (body.take n)

/-! ## Keys -/

/-- what is hashed for the key of the plain format -/
def plainKeySource (password : String) (keyword : Option String) : Bytes :=
  salt ++ Text.utf8 password ++ Text.utf8 (keyword.getD "")

/-- what is hashed for the key of the sealed format -/
def sealedKeySource (password : String) (keyword : Option String) : Bytes :=
  salt ++ sealedTag ++ Text.utf8 password ++ Text.utf8 (keyword.getD "")

def plainKey (password : String) (keyword : Option String) : Bytes :=
  P.keyDigest (P.digest (plainKeySource password keyword))

def sealedKey (password : String) (keyword : Option String) : Bytes :=
  P.digest (sealedKeySource password keyword)

/-! ## Writing -/

/-- zeros up to whole blocks -/
def padded (b : Bytes) : Bytes :=
  b ++ List.replicate ((blockLength - b.length % blockLength) % blockLength) 0

def encryptPlain (secret : Bytes) (password : String) (keyword : Option String) :
    Except BlobError Bytes := do
  let b ← framed secret
  return Block.mapAll (P.encryptBlock (plainKey P password keyword)) (padded b)

def encryptSealed (nonce : Octets 12) (secret : Bytes) (password : String) (keyword : Option String) :
    Except BlobError Bytes := do
  let b ← framed secret
  return sealedTag ++ nonce.bytes ++
    P.lock (sealedKey P password keyword) nonce.bytes sealedTag b

/-! ## Reading -/

/-- carries the tag and is long enough -/
def isSealed (blob : Bytes) : Bool :=
  sealedMinimum ≤ blob.length && sealedTag.isPrefixOf blob

def decryptSealed (blob : Bytes) (password : String) (keyword : Option String) :
    Except BlobError Bytes :=
  let body := blob.drop sealedTag.length
  match P.unlock (sealedKey P password keyword) (body.take nonceLength) sealedTag
      (body.drop nonceLength) with
  | some b => unframed b
  | none => .error .notAuthentic

def decryptPlain (blob : Bytes) (password : String) (keyword : Option String) :
    Except BlobError Bytes :=
  if blob = [] then .error .empty
  else if blob.length % blockLength ≠ 0 then .error (.notAligned blob.length)
  else unframed (Block.mapAll (P.decryptBlock (plainKey P password keyword)) blob)

def decrypt (blob : Bytes) (password : String) (keyword : Option String) :
    Except BlobError Bytes :=
  if blob = [] then .error .empty
  else if isSealed blob then
    match decryptSealed P blob password keyword with
    | .ok secret => .ok secret
    | .error e =>
      if blob.length % blockLength ≠ 0 then .error e else decryptPlain P blob password keyword
  else decryptPlain P blob password keyword

end KeyBlob

end LedgerClient
