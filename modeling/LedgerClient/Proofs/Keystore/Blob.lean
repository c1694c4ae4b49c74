import LedgerClient.Keystore.Blob
import LedgerClient.Proofs.Check
import LedgerClient.Proofs.Cipher.Lawful
import LedgerClient.Proofs.Digits
/-!
# Blobs, read back

* `KeyBlob.unframed_append`       a frame gives its secret back, whatever follows it;
* `KeyBlob.decrypt_of_encryptSealed`   a sealed blob opens under its password;
* `KeyBlob.isSealed_of_encryptSealed`, `KeyBlob.length_of_encryptSealed`   its tag and length;
* `KeyBlob.Unauthentic`           no sealed blob, or one that does not open under the password;
* `KeyBlob.decrypt_of_encryptPlain`    so does a plain blob, unless it passes for a sealed one.
-/

namespace LedgerClient.KeyBlob

variable {P : Primitives} {secret b blob : Bytes} {password : String} {keyword : Option String}

theorem framed_eq_ok_iff : framed secret = .ok b ↔
    secret.length < 2 ^ 32 ∧ b = magic ++ Bytes.fixed 4 secret.length ++ secret := by
  unfold framed
  rw [show Nat.pow 2 32 = 2 ^ 32 from rfl]
  by_cases h : secret.length < 2 ^ 32
  · rw [if_pos h]
    simp only [Except.ok.injEq]
    exact ⟨fun he => ⟨h, he.symm⟩, fun he => he.2.symm⟩
  · rw [if_neg h]
    exact ⟨fun he => (nomatch he), fun he => absurd he.1 h⟩

theorem unframed_append (h : framed secret = .ok b) (rest : Bytes) :
    unframed (b ++ rest) = .ok secret := by
  obtain ⟨hsize, rfl⟩ := framed_eq_ok_iff.1 h
  have htake : (magic ++ Bytes.fixed 4 secret.length ++ secret ++ rest).take 4 = magic := rfl
  have hdrop4 : (magic ++ Bytes.fixed 4 secret.length ++ secret ++ rest).drop 4 =
      Bytes.fixed 4 secret.length ++ (secret ++ rest) := by
    rw [List.append_assoc, List.append_assoc]
    rfl
  have hcount : ((magic ++ Bytes.fixed 4 secret.length ++ secret ++ rest).drop 4).take 4 =
      Bytes.fixed 4 secret.length := by
    rw [hdrop4]
    exact List.take_left' (Bytes.length_fixed 4 _)
  have hbody : (magic ++ Bytes.fixed 4 secret.length ++ secret ++ rest).drop headerLength =
      secret ++ rest := by
    rw [show headerLength = 4 + 4 from rfl, ← List.drop_drop, hdrop4]
    exact List.drop_left' (Bytes.length_fixed 4 _)
  have hlong : ¬ (magic ++ Bytes.fixed 4 secret.length ++ secret ++ rest).length < headerLength := by
    have hmagic : magic.length = 4 := rfl
    simp only [List.length_append, Bytes.length_fixed, hmagic, headerLength]
    omega
  have hvalue : Bytes.toNat (Bytes.fixed 4 secret.length) = secret.length := by
    rw [Bytes.toNat_fixed]
    exact Nat.mod_eq_of_lt hsize
  unfold unframed
  rw [if_neg (not_not.2 htake), if_neg hlong, hcount, hbody, hvalue]
  show (if (secret ++ rest).length < secret.length then _ else _) = _
  rw [if_neg (by rw [List.length_append]; omega), List.take_left]

theorem unframed_framed (h : framed secret = .ok b) : unframed b = .ok secret := by
  have happend := unframed_append h []
  rwa [List.append_nil] at happend

/-! ## sealed blobs -/

theorem encryptSealed_eq_ok_iff {nonce : Octets 12} :
    encryptSealed P nonce secret password keyword = .ok blob ↔ ∃ b, framed secret = .ok b ∧
      sealedTag ++ nonce.bytes ++ P.lock (sealedKey P password keyword) nonce.bytes sealedTag b =
        blob := by
  unfold encryptSealed
  simp only [bind_eq_ok_iff, pure_eq_ok_iff]

theorem exists_encryptSealed (P : Primitives) (nonce : Octets 12) (password : String)
    (keyword : Option String) (h : secret.length < 2 ^ 32) :
    ∃ blob, encryptSealed P nonce secret password keyword = .ok blob :=
  ⟨_, encryptSealed_eq_ok_iff.2 ⟨_, framed_eq_ok_iff.2 ⟨h, rfl⟩, rfl⟩⟩

theorem length_of_framed (h : framed secret = .ok b) : b.length = 8 + secret.length := by
  obtain ⟨-, rfl⟩ := framed_eq_ok_iff.1 h
  have hmagic : magic.length = 4 := rfl
  simp only [List.length_append, Bytes.length_fixed, hmagic]

/-- tag, nonce, header and authentication tag are forty bytes -/
theorem length_of_encryptSealed {nonce : Octets 12}
    (h : encryptSealed P nonce secret password keyword = .ok blob) :
    blob.length = 40 + secret.length := by
  obtain ⟨b, hb, rfl⟩ := encryptSealed_eq_ok_iff.1 h
  have htag : sealedTag.length = 4 := rfl
  rw [List.length_append, List.length_append, nonce.size, P.lock_length, htag, length_of_framed hb]
  omega

theorem isSealed_of_encryptSealed {nonce : Octets 12}
    (h : encryptSealed P nonce secret password keyword = .ok blob) : isSealed blob = true := by
  have hlength := length_of_encryptSealed h
  obtain ⟨b, -, rfl⟩ := encryptSealed_eq_ok_iff.1 h
  unfold isSealed
  rw [Bool.and_eq_true, decide_eq_true_eq, List.isPrefixOf_iff_prefix, List.append_assoc] at *
  refine ⟨?_, List.prefix_append _ _⟩
  show 32 ≤ _
  omega

theorem decrypt_of_encryptSealed (hP : P.LawfulCiphers) {nonce : Octets 12}
    (h : encryptSealed P nonce secret password keyword = .ok blob) :
    decrypt P blob password keyword = .ok secret := by
  have hsealed := isSealed_of_encryptSealed h
  obtain ⟨b, hb, rfl⟩ := encryptSealed_eq_ok_iff.1 h
  have hdrop : (sealedTag ++ nonce.bytes ++
      P.lock (sealedKey P password keyword) nonce.bytes sealedTag b).drop sealedTag.length =
      nonce.bytes ++ P.lock (sealedKey P password keyword) nonce.bytes sealedTag b := by
    rw [List.append_assoc]
    exact List.drop_left
  have hopen : decryptSealed P (sealedTag ++ nonce.bytes ++
      P.lock (sealedKey P password keyword) nonce.bytes sealedTag b) password keyword =
      .ok secret := by
    have hsize : nonce.bytes.length = nonceLength := nonce.size
    unfold decryptSealed
    simp only [hdrop]
    rw [List.take_left' hsize, List.drop_left' hsize, hP.unlock_lock]
    exact unframed_framed hb
  have hne : sealedTag ++ nonce.bytes ++
      P.lock (sealedKey P password keyword) nonce.bytes sealedTag b ≠ [] := by
    simp [sealedTag]
  unfold decrypt
  rw [if_neg hne, if_pos hsealed, hopen]

/-! ## plain blobs -/

/-- the blob does not pass for a sealed one, or does not open as one -/
def Unauthentic (P : Primitives) (blob : Bytes) (password : String) (keyword : Option String) :
    Prop :=
  isSealed blob = true → P.unlock (sealedKey P password keyword)
    ((blob.drop sealedTag.length).take nonceLength) sealedTag
    ((blob.drop sealedTag.length).drop nonceLength) = none

theorem decryptSealed_of_unauthentic (hsealed : isSealed blob = true)
    (h : Unauthentic P blob password keyword) :
    decryptSealed P blob password keyword = .error .notAuthentic := by
  unfold decryptSealed
  simp only [h hsealed]

theorem encryptPlain_eq_ok_iff :
    encryptPlain P secret password keyword = .ok blob ↔ ∃ b, framed secret = .ok b ∧
      Block.mapAll (P.encryptBlock (plainKey P password keyword)) (padded b) = blob := by
  unfold encryptPlain
  simp only [bind_eq_ok_iff, pure_eq_ok_iff]

theorem exists_encryptPlain (P : Primitives) (password : String) (keyword : Option String)
    (h : secret.length < 2 ^ 32) : ∃ blob, encryptPlain P secret password keyword = .ok blob :=
  ⟨_, encryptPlain_eq_ok_iff.2 ⟨_, framed_eq_ok_iff.2 ⟨h, rfl⟩, rfl⟩⟩

theorem length_padded (b : Bytes) : (padded b).length % blockLength = 0 := by
  unfold padded
  rw [List.length_append, List.length_replicate]
  show (b.length + (16 - b.length % 16) % 16) % 16 = 0
  omega

theorem decryptPlain_of_encryptPlain (hP : P.LawfulCiphers)
    (h : encryptPlain P secret password keyword = .ok blob) :
    decryptPlain P blob password keyword = .ok secret := by
  obtain ⟨b, hb, rfl⟩ := encryptPlain_eq_ok_iff.1 h
  have hlength := Block.length_mapAll (P.encryptBlock (plainKey P password keyword)) (padded b)
  have haligned : (Block.mapAll (P.encryptBlock (plainKey P password keyword))
      (padded b)).length % blockLength = 0 := by
    rw [hlength]
    exact length_padded b
  have hne : Block.mapAll (P.encryptBlock (plainKey P password keyword)) (padded b) ≠ [] := by
    intro hnil
    rw [hnil, padded, (framed_eq_ok_iff.1 hb).2] at hlength
    simp [magic] at hlength
  unfold decryptPlain
  rw [if_neg hne, if_neg (not_not.2 haligned),
    Block.mapAll_mapAll (hP.decryptBlock_encryptBlock (plainKey P password keyword))]
  exact unframed_append hb _

/-- a plain blob that happens to carry the tag is tried as a sealed one first -/
theorem decrypt_of_encryptPlain (hP : P.LawfulCiphers)
    (h : encryptPlain P secret password keyword = .ok blob)
    (hblob : Unauthentic P blob password keyword) :
    decrypt P blob password keyword = .ok secret := by
  have hplain := decryptPlain_of_encryptPlain hP h
  have hne : blob ≠ [] := by
    rintro rfl
    exact nomatch hplain
  unfold decrypt
  rw [if_neg hne]
  by_cases hsealed : isSealed blob = true
  · have haligned : blob.length % blockLength = 0 := by
      obtain ⟨b, -, rfl⟩ := encryptPlain_eq_ok_iff.1 h
      rw [Block.length_mapAll]
      exact length_padded b
    rw [if_pos hsealed, decryptSealed_of_unauthentic hsealed hblob]
    show (if blob.length % blockLength ≠ 0 then _ else _) = _
    rw [if_neg (not_not.2 haligned), hplain]
  · rw [if_neg hsealed, hplain]

end LedgerClient.KeyBlob
