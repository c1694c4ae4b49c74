import LedgerClient.Cipher.Blockwise
import LedgerClient.Primitives
import LedgerClient.Proofs.Cipher.Aes
/-!
# Ciphers that are undone

* `Gcm.opened_sealed`     what was sealed under a key opens under it;
* `Block.mapAll_mapAll`   a cipher that is undone on blocks is undone block by block;
* `Primitives.LawfulCiphers`   both laws, as what keystores rely on;
* `Primitives.lawfulCiphers_standard`   AES and AES-GCM have them.
-/

namespace LedgerClient

theorem Bytes.xor_xor {a b : Bytes} (h : a.length ≤ b.length) : xor (xor a b) b = a := by
  induction a generalizing b with
  | nil => rfl
  | cons x a ih =>
    cases b with
    | nil => exact absurd h (Nat.not_succ_le_zero _)
    | cons y b =>
      show (x ^^^ y ^^^ y) :: xor (xor a b) b = x :: a
      rw [ih (Nat.le_of_succ_le_succ h), UInt8.xor_assoc, UInt8.xor_self, UInt8.xor_zero]

namespace Gcm

theorem mask_mask (e : Block → Block) (nonce m : Bytes) : mask e nonce (mask e nonce m) = m := by
  have hlength : m.length ≤ (stream e nonce m.length).length :=
    Nat.le_of_eq (length_stream e nonce m.length).symm
  show Bytes.xor (mask e nonce m) (stream e nonce (mask e nonce m).length) = m
  rw [length_mask]
  exact Bytes.xor_xor hlength

theorem opened_sealed (e : Block → Block) (nonce aad m : Bytes) :
    opened e nonce aad (sealed e nonce aad m) = some m := by
  have hlength := length_sealed e nonce aad m
  have hbody : (sealed e nonce aad m).length - 16 = (mask e nonce m).length := by
    rw [hlength, length_mask, Nat.add_sub_cancel]
  have htake : (sealed e nonce aad m).take ((sealed e nonce aad m).length - 16) = mask e nonce m := by
    rw [hbody]
    exact List.take_left
  have hdrop : (sealed e nonce aad m).drop ((sealed e nonce aad m).length - 16) =
      tag e nonce aad (mask e nonce m) := by
    rw [hbody]
    exact List.drop_left
  unfold opened
  rw [if_neg (by omega), htake, hdrop, if_pos rfl, mask_mask]

end Gcm

namespace Block

variable {f g : Block → Block}

theorem mapFrom_mapFrom (h : ∀ b, g (f b) = b) (fuel : Nat) (b : Bytes) :
    mapFrom g fuel (mapFrom f fuel b) = b := by
  induction fuel generalizing b with
  | zero => rfl
  | succ fuel ih =>
    by_cases hb : 16 ≤ b.length
    · have hblock : (b.take 16).length = 16 := by
        rw [List.length_take]
        exact Nat.min_eq_left hb
      have hmap : mapFrom f (fuel + 1) b = (f ⟨b.take 16, hblock⟩).bytes ++ mapFrom f fuel (b.drop 16) :=
        dif_pos hb
      have hsize := (f ⟨b.take 16, hblock⟩).size
      have htake : ((f ⟨b.take 16, hblock⟩).bytes ++ mapFrom f fuel (b.drop 16)).take 16 =
          (f ⟨b.take 16, hblock⟩).bytes := List.take_left' hsize
      have hdrop : ((f ⟨b.take 16, hblock⟩).bytes ++ mapFrom f fuel (b.drop 16)).drop 16 =
          mapFrom f fuel (b.drop 16) := List.drop_left' hsize
      have hlong : 16 ≤ ((f ⟨b.take 16, hblock⟩).bytes ++ mapFrom f fuel (b.drop 16)).length := by
        rw [List.length_append, hsize]
        exact Nat.le_add_right _ _
      rw [hmap, mapFrom, dif_pos hlong]
      simp only [htake, hdrop, ih]
      show (g (f ⟨b.take 16, hblock⟩)).bytes ++ b.drop 16 = b
      rw [h]
      exact List.take_append_drop 16 b
    · have hmap : ∀ f, mapFrom f (fuel + 1) b = b := fun f => dif_neg hb
      rw [hmap, hmap]

theorem mapAll_mapAll (h : ∀ b, g (f b) = b) (b : Bytes) : mapAll g (mapAll f b) = b := by
  unfold mapAll
  rw [length_mapFrom]
  exact mapFrom_mapFrom h b.length b

end Block

/-- blocks are decrypted to what was encrypted, and what was locked under a key unlocks under it -/
structure Primitives.LawfulCiphers (P : Primitives) : Prop where
  decryptBlock_encryptBlock : ∀ key b, P.decryptBlock key (P.encryptBlock key b) = b
  unlock_lock : ∀ key nonce aad m, P.unlock key nonce aad (P.lock key nonce aad m) = some m

theorem Primitives.lawfulCiphers_standard : Primitives.standard.LawfulCiphers where
  decryptBlock_encryptBlock := Aes.decrypt_encrypt
  unlock_lock key := Gcm.opened_sealed (Aes.encrypt key)

end LedgerClient
