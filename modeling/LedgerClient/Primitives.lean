import LedgerClient.Bytes
import LedgerClient.Cipher.Gcm
import LedgerClient.Curve.Ed25519
import LedgerClient.Hash.Keccak
import LedgerClient.Hash.Md5
import LedgerClient.Hash.Ripemd
/-!
# The functions a wallet rests on

Hashes, signatures and ciphers, taken together as one value. Nothing else in the library looks
inside them, so what is stated about envelopes, addresses and key blobs holds for any choice.

* `Primitives`            the functions, and the lengths that callers rely on;
* `Primitives.standard`   SHA3-256, RIPEMD-160, MD5, Ed25519, AES and AES-GCM.
-/

namespace LedgerClient

abbrev Seed := Octets 32

abbrev PublicKey := Octets 32

abbrev Signature := Octets 64

structure Primitives where
  /-- the 256-bit digest behind addresses, selectors and keystore keys -/
  digest : Bytes → Bytes
  /-- the 160-bit digest of address bodies and checksums -/
  shortDigest : Bytes → Bytes
  /-- the digest that narrows a keystore key to one block -/
  keyDigest : Bytes → Bytes
  publicKey : Seed → PublicKey
  sign : Seed → Bytes → Signature
  /-- whether a public key can verify anything at all -/
  isPoint : PublicKey → Bool
  verify : PublicKey → Bytes → Signature → Bool
  /-- one block under a key -/
  encryptBlock : Bytes → Block → Block
  decryptBlock : Bytes → Block → Block
  /-- authenticated encryption: key, nonce, associated data, plaintext -/
  lock : Bytes → Bytes → Bytes → Bytes → Bytes
  /-- the plaintext, if the ciphertext is authentic -/
  unlock : Bytes → Bytes → Bytes → Bytes → Option Bytes
  digest_length : ∀ b, (digest b).length = 32
  shortDigest_length : ∀ b, (shortDigest b).length = 20
  lock_length : ∀ key nonce aad m, (lock key nonce aad m).length = m.length + 16
  unlock_length : ∀ key nonce aad c m, unlock key nonce aad c = some m → m.length + 16 = c.length

def Primitives.standard : Primitives where
  digest := Hash.sha3_256
  shortDigest := Hash.ripemd160
  keyDigest := Hash.md5
  publicKey seed := Ed25519.publicKey seed.bytes
  sign seed m := Ed25519.sign seed.bytes m
  isPoint := Ed25519.isPoint
  verify := Ed25519.verify
  encryptBlock := Aes.encrypt
  decryptBlock := Aes.decrypt
  lock key := Gcm.sealed (Aes.encrypt key)
  unlock key := Gcm.opened (Aes.encrypt key)
  digest_length := Hash.length_sha3_256
  shortDigest_length := Hash.length_ripemd160
  lock_length _ := Gcm.length_sealed _
  unlock_length _ _ _ _ _ := Gcm.length_opened

end LedgerClient
