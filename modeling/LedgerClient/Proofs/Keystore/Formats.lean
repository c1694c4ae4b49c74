import LedgerClient.Proofs.Keystore.Blob
import Mathlib.Logic.Equiv.Basic
import Mathlib.Order.Bounds.Basic
/-!
# Two formats, one way to open them

`decrypt` is given a blob without its format. It goes by the tag, and a plain blob can carry the
tag of the sealed format by chance: its first block is whatever the cipher makes of the frame. Such
a blob is tried as a sealed one, fails there, and is opened as what it is.

* `KeyBlob.isLeast_length_padded`   padding adds no more than whole blocks need;
* `KeyBlob.framed_of_le`            what has no length prefix is refused by both writers;
* `KeyBlob.both_formats_open`       what the writers give for every secret, and that it opens;
* `KeyBlob.swapping`                a cipher that gives a plain blob the tag of a sealed one.
-/

namespace LedgerClient

namespace KeyBlob

variable {P : Primitives} {secret b blob : Bytes} {password : String} {keyword : Option String}

/-! ## lengths -/

theorem length_le_length_padded (b : Bytes) : b.length ≤ (padded b).length := by
  unfold padded
  rw [List.length_append]
  exact Nat.le_add_right _ _

theorem length_padded_lt (b : Bytes) : (padded b).length < b.length + 16 := by
  unfold padded
  rw [List.length_append, List.length_replicate]
  show b.length + (16 - b.length % 16) % 16 < b.length + 16
  omega

theorem isLeast_length_padded (b : Bytes) :
    IsLeast {m | 16 ∣ m ∧ b.length ≤ m} (padded b).length := by
  have haligned : (padded b).length % 16 = 0 := length_padded b
  have hshort := length_padded_lt b
  refine ⟨⟨Nat.dvd_of_mod_eq_zero haligned, length_le_length_padded b⟩, ?_⟩
  rintro m ⟨hm, hb⟩
  -- two multiples of a block, less than a block apart
  omega

theorem isLeast_length_of_encryptPlain
    (h : encryptPlain P secret password keyword = .ok blob) :
    IsLeast {m | 16 ∣ m ∧ 8 + secret.length ≤ m} blob.length := by
  obtain ⟨b, hb, rfl⟩ := encryptPlain_eq_ok_iff.1 h
  rw [Block.length_mapAll, ← length_of_framed hb]
  exact isLeast_length_padded b

/-! ## secrets without a blob -/

theorem framed_of_le (h : 2 ^ 32 ≤ secret.length) :
    framed secret = .error (.tooLarge secret.length) := by
  unfold framed
  rw [show Nat.pow 2 32 = 2 ^ 32 from rfl, if_neg (Nat.not_lt.2 h)]

theorem encryptPlain_of_le (h : 2 ^ 32 ≤ secret.length) :
    encryptPlain P secret password keyword = .error (.tooLarge secret.length) := by
  unfold encryptPlain
  rw [framed_of_le h]
  rfl

theorem encryptSealed_of_le (nonce : Octets 12) (h : 2 ^ 32 ≤ secret.length) :
    encryptSealed P nonce secret password keyword = .error (.tooLarge secret.length) := by
  unfold encryptSealed
  rw [framed_of_le h]
  rfl

/-! ## both formats -/

/-- a secret with a length prefix is written in both formats and read back from both by the one
`decrypt`; a longer one is refused by both writers -/
theorem both_formats_open (hP : P.LawfulCiphers) (secret : Bytes) (password : String)
    (keyword : Option String) (nonce : Octets 12) :
    (secret.length < 2 ^ 32 → ∃ plain tagged,
      encryptPlain P secret password keyword = .ok plain ∧
      encryptSealed P nonce secret password keyword = .ok tagged ∧
      IsLeast {m | 16 ∣ m ∧ 8 + secret.length ≤ m} plain.length ∧
      tagged.length = 40 + secret.length ∧ isSealed tagged = true ∧
      decryptPlain P plain password keyword = .ok secret ∧
      decrypt P tagged password keyword = .ok secret ∧
      (Unauthentic P plain password keyword → decrypt P plain password keyword = .ok secret)) ∧
    (2 ^ 32 ≤ secret.length →
      encryptPlain P secret password keyword = .error (.tooLarge secret.length) ∧
      encryptSealed P nonce secret password keyword = .error (.tooLarge secret.length)) := by
  constructor
  · intro hsize
    obtain ⟨plain, hplain⟩ := exists_encryptPlain P password keyword hsize
    obtain ⟨tagged, htagged⟩ := exists_encryptSealed P nonce password keyword hsize
    exact ⟨plain, tagged, hplain, htagged, isLeast_length_of_encryptPlain hplain,
      length_of_encryptSealed htagged, isSealed_of_encryptSealed htagged,
      decryptPlain_of_encryptPlain hP hplain, decrypt_of_encryptSealed hP htagged,
      decrypt_of_encryptPlain hP hplain⟩
  · intro hsize
    exact ⟨encryptPlain_of_le hsize, encryptSealed_of_le nonce hsize⟩

/-! ## a plain blob that carries the tag -/

/-- the first block of the frame of `taggedSecret` -/
def frameBlock : Block := .ofNat 16 0x4243424b00000020000000006741bdd2

/-- what AES makes of it under the plain key of the password `pw`: it starts with `KSv2` -/
def tagBlock : Block := .ofNat 16 0x4b537632134279f54e1a38cbab66dfcc

/-- what AES makes of a block of zeros under that key -/
def fillBlock : Block := .ofNat 16 0x453cbabc95cc1a46653763e7665ced4f

/-- a permutation of blocks with the values of AES on the blocks of that frame -/
def swapBlocks (x : Block) : Block :=
  Equiv.swap frameBlock tagBlock (Equiv.swap (.ofNat 16 0) fillBlock x)

def unswapBlocks (x : Block) : Block :=
  Equiv.swap (.ofNat 16 0) fillBlock (Equiv.swap frameBlock tagBlock x)

/-- the standard functions, with that cipher in the place of AES -/
def swapping : Primitives :=
  { Primitives.standard with
    encryptBlock := fun _ => swapBlocks
    decryptBlock := fun _ => unswapBlocks
    lock := fun _ => Gcm.sealed swapBlocks
    unlock := fun _ => Gcm.opened swapBlocks
    lock_length := fun _ => Gcm.length_sealed swapBlocks
    unlock_length := fun _ _ _ _ _ => Gcm.length_opened }

theorem unlock_swapping (key nonce aad c : Bytes) :
    swapping.unlock key nonce aad c = Gcm.opened swapBlocks nonce aad c := rfl

theorem lawfulCiphers_swapping : swapping.LawfulCiphers where
  decryptBlock_encryptBlock _ x := by
    show unswapBlocks (swapBlocks x) = x
    rw [unswapBlocks, swapBlocks, Equiv.swap_apply_self, Equiv.swap_apply_self]
  unlock_lock _ := Gcm.opened_sealed swapBlocks

def taggedSecret : Bytes := Bytes.fixed 8 0x6741bdd2 ++ List.replicate 24 0

def taggedBlob : Bytes := tagBlock.bytes ++ fillBlock.bytes ++ fillBlock.bytes

theorem encryptPlain_taggedSecret :
    encryptPlain swapping taggedSecret "pw" none = .ok taggedBlob := by
  decide +kernel

theorem unauthentic_taggedBlob : Unauthentic swapping taggedBlob "pw" none := by
  have hopened : Gcm.opened swapBlocks ((taggedBlob.drop sealedTag.length).take nonceLength)
      sealedTag ((taggedBlob.drop sealedTag.length).drop nonceLength) = none := by
    decide +kernel
  intro _
  rw [unlock_swapping, hopened]

/-- a plain blob with the tag of a sealed one opens, and four gigabytes have no blob -/
theorem both_formats_open_tagged :
    (isSealed taggedBlob = true ∧ decrypt swapping taggedBlob "pw" none = .ok taggedSecret) ∧
    encryptPlain .standard (List.replicate (2 ^ 32) 0) "pw" none = .error (.tooLarge (2 ^ 32)) := by
  have hsize : taggedSecret.length < 2 ^ 32 := by decide
  constructor
  · obtain ⟨plain, _, hplain, _, _, _, _, _, _, hopen⟩ :=
      (both_formats_open lawfulCiphers_swapping taggedSecret "pw" none (.ofNat 12 0)).1 hsize
    obtain rfl : plain = taggedBlob :=
      Except.ok.inj (hplain.symm.trans encryptPlain_taggedSecret)
    exact ⟨by decide, hopen unauthentic_taggedBlob⟩
  · have hlength : (List.replicate (2 ^ 32) (0 : UInt8)).length = 2 ^ 32 := List.length_replicate
    have hrefused := (both_formats_open Primitives.lawfulCiphers_standard
      (List.replicate (2 ^ 32) 0) "pw" none (.ofNat 12 0)).2 (Nat.le_of_eq hlength.symm)
    rw [hrefused.1, hlength]

end KeyBlob

end LedgerClient
