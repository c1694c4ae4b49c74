import LedgerClient.Proofs.Keystore.Opening
import LedgerClient.Proofs.Separation
/-!
# Which credentials open a blob

The key of a blob is hashed from a salt, the password and the keyword, one behind the other. The
salt has a fixed length, so what password and keyword say together is told; where the one ends and
the other begins is not. The password `ab` with the keyword `c` and the password `a` with the
keyword `bc` open each other's blobs, and a password opens what its own two parts have locked. Other
credentials have other keys unless a hash collides, and what is opened under another key is refused
as long as the ciphers make no frame of it.

* `KeyBlob.Alike`                  credentials that differ by a piece moved over the boundary, if at
  all;
* `KeyBlob.plainKeySource_eq_iff`, `sealedKeySource_eq_iff`   alike is what gives the same bytes;
* `KeyBlob.decrypt_of_alike`       credentials that are alike open the same blobs;
* `KeyBlob.NoCollision`            none of the hashes behind the keys collides on two credentials;
* `KeyBlob.Guarded`                what is asked of the ciphers: no frame under another key;
* `KeyBlob.credentials_told_apart` what becomes of a blob under other credentials;
* `KeyBlob.keyword_in_password`    two credentials with the same keys.
-/

namespace LedgerClient.KeyBlob

open Text

variable {P : Primitives} {secret blob : Bytes} {password password' : String}
  {keyword keyword' : Option String}

/-! ## keys -/

/-- the same password and keyword, or a piece of text has moved from the one to the other; no
keyword is the empty one -/
def Alike (password : String) (keyword : Option String) (password' : String)
    (keyword' : Option String) : Prop :=
  (password = password' ∧ keyword.getD "" = keyword'.getD "") ∨
    Moved password (keyword.getD "") password' (keyword'.getD "")

theorem plainKeySource_eq_iff :
    plainKeySource password keyword = plainKeySource password' keyword' ↔
      Alike password keyword password' keyword' := by
  rw [plainKeySource, plainKeySource, List.append_assoc, List.append_assoc, List.append_right_inj]
  exact utf8_append_eq_iff

theorem sealedKeySource_eq_iff :
    sealedKeySource password keyword = sealedKeySource password' keyword' ↔
      Alike password keyword password' keyword' := by
  rw [sealedKeySource, sealedKeySource, List.append_assoc (salt ++ sealedTag),
    List.append_assoc (salt ++ sealedTag), List.append_right_inj]
  exact utf8_append_eq_iff

/-- a blob is opened with the two keys, and with nothing else of the credentials -/
theorem decrypt_congr (hplain : plainKey P password keyword = plainKey P password' keyword')
    (hsealed : sealedKey P password keyword = sealedKey P password' keyword') (blob : Bytes) :
    decrypt P blob password keyword = decrypt P blob password' keyword' := by
  unfold decrypt decryptSealed decryptPlain
  rw [hplain, hsealed]

theorem decrypt_of_alike (P : Primitives) (h : Alike password keyword password' keyword')
    (blob : Bytes) : decrypt P blob password keyword = decrypt P blob password' keyword' := by
  have hplain : plainKey P password keyword = plainKey P password' keyword' := by
    rw [plainKey, plainKeySource_eq_iff.2 h, plainKey]
  have hsealed : sealedKey P password keyword = sealedKey P password' keyword' := by
    rw [sealedKey, sealedKeySource_eq_iff.2 h, sealedKey]
  exact decrypt_congr hplain hsealed blob

/-- none of the hashes behind the keys collides on these credentials -/
structure NoCollision (P : Primitives) (password : String) (keyword : Option String)
    (password' : String) (keyword' : Option String) : Prop where
  plain : ¬ Collides P.digest (plainKeySource password keyword) (plainKeySource password' keyword')
  narrow : ¬ Collides P.keyDigest (P.digest (plainKeySource password keyword))
    (P.digest (plainKeySource password' keyword'))
  tagged : ¬ Collides P.digest (sealedKeySource password keyword)
    (sealedKeySource password' keyword')

namespace NoCollision

variable (h : NoCollision P password keyword password' keyword')

include h

theorem plainKey_eq_iff : plainKey P password keyword = plainKey P password' keyword' ↔
    Alike password keyword password' keyword' := by
  rw [plainKey, plainKey, hash_hash_eq_iff, plainKeySource_eq_iff]
  exact or_iff_left fun hcollides => hcollides.elim h.plain h.narrow

theorem sealedKey_eq_iff : sealedKey P password keyword = sealedKey P password' keyword' ↔
    Alike password keyword password' keyword' := by
  rw [sealedKey, sealedKey, hash_eq_iff, sealedKeySource_eq_iff]
  exact or_iff_left h.tagged

end NoCollision

/-! ## blobs under another key -/

/-- a blob of either format, as it is written under credentials -/
inductive Written (P : Primitives) (password : String) (keyword : Option String) : Bytes → Prop
  | plain {secret blob : Bytes} :
    encryptPlain P secret password keyword = .ok blob → Written P password keyword blob
  | tagged {nonce : Octets 12} {secret blob : Bytes} :
    encryptSealed P nonce secret password keyword = .ok blob → Written P password keyword blob

/-- a blob without the tag is a plain one, and has whole blocks -/
theorem Written.isSealed_or_aligned (h : Written P password keyword blob) :
    isSealed blob = true ∨ blob.length % 16 = 0 := by
  cases h with
  | plain h =>
    obtain ⟨b, -, rfl⟩ := encryptPlain_eq_ok_iff.1 h
    rw [Block.length_mapAll]
    exact .inr (length_padded b)
  | tagged h => exact .inl (isSealed_of_encryptSealed h)

theorem Written.ne_nil (h : Written P password keyword blob) : blob ≠ [] := by
  cases h with
  | plain h =>
    obtain ⟨b, hb, rfl⟩ := encryptPlain_eq_ok_iff.1 h
    have hlong := length_le_length_padded b
    have hframe := length_of_framed hb
    intro hnil
    have hlength := congrArg List.length hnil
    rw [Block.length_mapAll, List.length_nil] at hlength
    omega
  | tagged h => exact ne_nil_of_isSealed (isSealed_of_encryptSealed h)

/-- under a key that is not the one of the first credentials, the ciphers make no frame of the blob:
its blocks do not start with the magic, and it is not authentic -/
structure Guarded (P : Primitives) (blob : Bytes) (password : String) (keyword : Option String)
    (password' : String) (keyword' : Option String) : Prop where
  blocks : plainKey P password keyword ≠ plainKey P password' keyword' →
    (Block.mapAll (P.decryptBlock (plainKey P password' keyword')) blob).take 4 ≠ magic
  lock : sealedKey P password keyword ≠ sealedKey P password' keyword' →
    Unauthentic P blob password' keyword'

theorem decryptPlain_of_take_ne (hne : blob ≠ [])
    (h : (Block.mapAll (P.decryptBlock (plainKey P password keyword)) blob).take 4 ≠ magic) :
    decryptPlain P blob password keyword =
      .error (if blob.length % 16 = 0 then .magic else .notAligned blob.length) := by
  by_cases haligned : blob.length % 16 = 0
  · rw [decryptPlain_of_aligned hne haligned, if_pos haligned]
    exact if_pos h
  · rw [decryptPlain_of_not_aligned hne haligned, if_neg haligned]

/-- what no cipher opens is refused: by the magic if it has whole blocks, or else as not authentic -/
theorem decrypt_of_unauthentic (hne : blob ≠ [])
    (hformat : isSealed blob = true ∨ blob.length % 16 = 0)
    (hblocks : (Block.mapAll (P.decryptBlock (plainKey P password keyword)) blob).take 4 ≠ magic)
    (hlock : Unauthentic P blob password keyword) :
    decrypt P blob password keyword =
      .error (if blob.length % 16 = 0 then .magic else .notAuthentic) := by
  have hopening := opening_decrypt P blob password keyword
  generalize decrypt P blob password keyword = r at hopening ⊢
  cases hopening with
  | opened hsealed hopen => cases (decryptSealed_of_unauthentic hsealed hlock).symm.trans hopen
  | broken hsealed hopen haligned =>
    cases (decryptSealed_of_unauthentic hsealed hlock).symm.trans hopen
    rw [if_neg haligned]
  | plain htag =>
    have haligned : blob.length % 16 = 0 := hformat.elim (fun hsealed => (htag hsealed).2) id
    rw [decryptPlain_of_take_ne hne hblocks, if_pos haligned, if_pos haligned]

/-! ## two credentials -/

/-- two credentials are hashed from the same bytes exactly when they are alike, and then they open
the same blobs; unless the hashes collide on them, the keys of any two others differ, and what is
written under the one is refused under the other -/
theorem credentials_told_apart (P : Primitives) (password : String) (keyword : Option String)
    (password' : String) (keyword' : Option String) :
    (plainKeySource password keyword = plainKeySource password' keyword' ↔
      Alike password keyword password' keyword') ∧
    (sealedKeySource password keyword = sealedKeySource password' keyword' ↔
      Alike password keyword password' keyword') ∧
    (Alike password keyword password' keyword' →
      ∀ blob, decrypt P blob password' keyword' = decrypt P blob password keyword) ∧
    (NoCollision P password keyword password' keyword' →
      ¬ Alike password keyword password' keyword' →
      plainKey P password keyword ≠ plainKey P password' keyword' ∧
      sealedKey P password keyword ≠ sealedKey P password' keyword' ∧
      ∀ blob, Written P password keyword blob →
        Guarded P blob password keyword password' keyword' →
          decrypt P blob password' keyword' =
            .error (if blob.length % 16 = 0 then .magic else .notAuthentic) ∧
          decryptPlain P blob password' keyword' =
            .error (if blob.length % 16 = 0 then .magic else .notAligned blob.length)) := by
  refine ⟨plainKeySource_eq_iff, sealedKeySource_eq_iff, ?_, ?_⟩
  · intro halike blob
    exact (decrypt_of_alike P halike blob).symm
  · intro hhash halike
    have hplain := mt hhash.plainKey_eq_iff.1 halike
    have hsealed := mt hhash.sealedKey_eq_iff.1 halike
    refine ⟨hplain, hsealed, ?_⟩
    intro blob hwritten hguarded
    have hblocks := hguarded.blocks hplain
    exact ⟨decrypt_of_unauthentic hwritten.ne_nil hwritten.isSealed_or_aligned hblocks
        (hguarded.lock hsealed),
      decryptPlain_of_take_ne hwritten.ne_nil hblocks⟩

/-! ## a wrong password -/

section

variable {α : Type} [DecidableEq α] {β : Type}

/-- `f`, with some of its values written down -/
def noted (values : List (α × β)) (f : α → β) (a : α) : β := (values.lookup a).getD (f a)

theorem length_noted {values : List (α × Bytes)} {f : α → Bytes} {n : Nat}
    (hvalues : ∀ v ∈ values, v.2.length = n) (hf : ∀ a, (f a).length = n) (a : α) :
    (noted values f a).length = n := by
  unfold noted
  cases hlookup : values.lookup a with
  | none => exact hf a
  | some v =>
    obtain ⟨before, after, rfl, -⟩ := List.lookup_eq_some_iff.1 hlookup
    exact hvalues (a, v) (List.mem_append_right _ (List.mem_cons_self ..))

end

/-- the digests behind the plain keys of the passwords `pw` and `px` -/
def rightDigest : Bytes :=
  Bytes.fixed 32 0x2814478f28e912e8f78253bf8d86e2be65a3273fba1850e57cefb276cc1c190c

def wrongDigest : Bytes :=
  Bytes.fixed 32 0xcd036790581d15b44e6e4370ba3bbc4a67e497de570309d6442311dc5d4effde

def rightKey : Bytes := Bytes.fixed 16 0x4e0f1f16592d4d85e962926e758fb835

def wrongKey : Bytes := Bytes.fixed 16 0x22216e54457953f9b4fd5d21fb9adb58

/-- the frame of one byte -/
def byteFrame : Block := .ofNat 16 0x4243424b000000012a00000000000000

def byteBlock : Block := .ofNat 16 0x8b572e111d625a37a3c2c845bc491468

/-- what is left of the frame under the other key -/
def wrongFrame : Block := .ofNat 16 0xa811051e431244c488c3ddf8be4f0b74

def notedDigests : List (Bytes × Bytes) :=
  [(plainKeySource "pw" none, rightDigest), (plainKeySource "px" none, wrongDigest),
    (sealedKeySource "pw" none,
      Bytes.fixed 32 0x09f98f61e7751753fcb5ccc0a76c1ac67542fcdc86f311e8840f4a0a24252108),
    (sealedKeySource "px" none,
      Bytes.fixed 32 0xfad72d371f90701fd1a39486a02ac4cea4777123529b1eea817d073da24716c9)]

/-- the standard functions; what they make of two passwords and a block is written down -/
def notedStandard : Primitives :=
  { Primitives.standard with
    digest := noted notedDigests Hash.sha3_256
    keyDigest := noted [(rightDigest, rightKey), (wrongDigest, wrongKey)] Hash.md5
    encryptBlock := fun key x =>
      noted [((rightKey, byteFrame), byteBlock)] (fun y => Aes.encrypt y.1 y.2) (key, x)
    decryptBlock := fun key x =>
      noted [((rightKey, byteBlock), byteFrame), ((wrongKey, byteBlock), wrongFrame)]
        (fun y => Aes.decrypt y.1 y.2) (key, x)
    digest_length := length_noted (by decide) Hash.length_sha3_256 }

theorem noCollision_notedStandard : NoCollision notedStandard "pw" none "px" none where
  plain h := absurd h.2 (by decide +kernel)
  narrow h := absurd h.2 (by decide +kernel)
  tagged h := absurd h.2 (by decide +kernel)

theorem written_byteBlock : Written notedStandard "pw" none byteBlock.bytes :=
  .plain (show encryptPlain notedStandard [0x2a] "pw" none = .ok byteBlock.bytes by
    decide +kernel)

theorem guarded_byteBlock : Guarded notedStandard byteBlock.bytes "pw" none "px" none where
  blocks _ := by decide +kernel
  lock _ h := absurd h (by decide)

/-- one byte that is locked with `pw` is refused with `px` -/
theorem credentials_told_apart_pw :
    decrypt notedStandard byteBlock.bytes "px" none = .error .magic := by
  have hphrase : "pw" ++ "" ≠ "px" ++ "" := by decide
  have halike : ¬ Alike "pw" none "px" none := mt append_eq_append_iff.2 hphrase
  obtain ⟨-, -, -, hapart⟩ := credentials_told_apart notedStandard "pw" none "px" none
  obtain ⟨-, -, hrefused⟩ := hapart noCollision_notedStandard halike
  exact (hrefused _ written_byteBlock guarded_byteBlock).1

/-- the `b` is the password's or the keyword's -/
theorem keyword_in_password :
    ("ab", some "c") ≠ ("a", some "bc") ∧
      plainKeySource "ab" (some "c") = plainKeySource "a" (some "bc") ∧
      sealedKeySource "ab" (some "c") = sealedKeySource "a" (some "bc") ∧
      ∀ blob, decrypt .standard blob "ab" (some "c") = decrypt .standard blob "a" (some "bc") := by
  have halike : Alike "ab" (some "c") "a" (some "bc") :=
    .inr ⟨"b", by decide, .inr ⟨rfl, rfl⟩⟩
  exact ⟨by decide, plainKeySource_eq_iff.2 halike, sealedKeySource_eq_iff.2 halike,
    decrypt_of_alike .standard halike⟩

end LedgerClient.KeyBlob
