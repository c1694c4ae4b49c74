import LedgerClient.Proofs.Cipher.Field
/-!
# AES undone

* `unsub_sub`             every byte stands in the box once, so its place is found again;
* `unshiftRows_shiftRows`, `unmixColumns_mixColumns`, `addKey_addKey`   the other three steps;
* `decrypt_encrypt`       for every key schedule, decryption runs the rounds backwards.
-/

namespace LedgerClient.Aes

/-! ## bytes -/

/-- the sum of three turns undoes the sum of five -/
def unturn (a : UInt8) : UInt8 := rotateLeft8 a 1 ^^^ rotateLeft8 a 3 ^^^ rotateLeft8 a 6 ^^^ 0x05

/-- the sum of five turns, and a constant -/
def turn (b : UInt8) : UInt8 :=
  b ^^^ rotateLeft8 b 1 ^^^ rotateLeft8 b 2 ^^^ rotateLeft8 b 3 ^^^ rotateLeft8 b 4 ^^^ 0x63

theorem unturn_turn (b : UInt8) : unturn (turn b) = b :=
  forall_byte (p := fun b => unturn (turn b) = b) (by decide +kernel) b

theorem inverse_unturn_substitute (a : UInt8) : inverse (unturn (substitute a)) = a := by
  show inverse (unturn (turn (inverse a))) = a
  rw [unturn_turn, inverse_inverse]

theorem substitute_inj {a b : UInt8} (h : substitute a = substitute b) : a = b := by
  rw [← inverse_unturn_substitute a, h, inverse_unturn_substitute]

theorem box_getD (n : Nat) (hn : n < 256) : box.getD n 0 = substitute (UInt8.ofNat n) := by
  unfold box
  simp [hn]

theorem sub_eq_substitute (a : UInt8) : sub a = substitute a := by
  unfold sub
  rw [box_getD _ a.toNat_lt, UInt8.ofNat_toNat]

/-- no other byte of the box is the same -/
theorem idxOf?_box (n : Nat) (hn : n < 256) : box.idxOf? (substitute (UInt8.ofNat n)) = some n := by
  unfold box
  rw [List.idxOf?_toArray]
  refine List.findIdx?_eq_some_iff_getElem.2 ⟨by simpa using hn, by simp, fun j hj heq => ?_⟩
  have hsame : substitute (UInt8.ofNat j) = substitute (UInt8.ofNat n) := by simpa using heq
  have hnat := congrArg UInt8.toNat (substitute_inj hsame)
  rw [UInt8.toNat_ofNat', UInt8.toNat_ofNat'] at hnat
  omega

theorem unsub_sub (a : UInt8) : unsub (sub a) = a := by
  have hlt : (sub a).toNat < 256 := (sub a).toNat_lt
  have hplace : box.idxOf? (sub a) = some a.toNat := by
    have h := idxOf?_box a.toNat a.toNat_lt
    rwa [UInt8.ofNat_toNat, ← sub_eq_substitute] at h
  unfold unsub unbox
  simp [hlt, hplace]

/-! ## rows and columns -/

/-- row `r` of column `c`, both taken modulo four -/
def cell (s : State) (r c : Nat) : UInt8 := s.get ⟨r % 4 + 4 * (c % 4), by omega⟩

theorem ext_cell {s t : State} (h : ∀ r c, cell s r c = cell t r c) : s = t := by
  refine Vector.ext fun i hi => ?_
  have hcell := h i (i / 4)
  unfold cell at hcell
  have hindex : i % 4 + 4 * (i / 4 % 4) = i := by omega
  simp only [hindex] at hcell
  exact hcell

theorem cell_mod {s : State} {r r' c c' : Nat} (hr : r % 4 = r' % 4) (hc : c % 4 = c' % 4) :
    cell s r c = cell s r' c' := by
  unfold cell
  simp only [hr, hc]

theorem cell_ofFn (f : Fin 16 → UInt8) (r c : Nat) :
    cell (Vector.ofFn f) r c = f ⟨r % 4 + 4 * (c % 4), by omega⟩ := by
  simp only [cell, Vector.get, Vector.toArray_ofFn, Array.getElem_ofFn]
  rfl

/-- a byte of a state, by its row and column -/
theorem get_eq_cell (s : State) {i r c : Nat} (hi : i < 16) (h : i = r % 4 + 4 * (c % 4)) :
    s.get ⟨i, hi⟩ = cell s r c := by
  subst h
  rfl

theorem cell_shiftRows (s : State) (r c : Nat) : cell (shiftRows s) r c = cell s r (c + r) := by
  unfold shiftRows
  rw [cell_ofFn]
  exact get_eq_cell s _ (by dsimp only; omega)

theorem cell_unshiftRows (s : State) (r c : Nat) :
    cell (unshiftRows s) r c = cell s r (c + 4 - r % 4) := by
  unfold unshiftRows
  rw [cell_ofFn]
  exact get_eq_cell s _ (by dsimp only; omega)

theorem unshiftRows_shiftRows (s : State) : unshiftRows (shiftRows s) = s := by
  refine ext_cell fun r c => ?_
  rw [cell_unshiftRows, cell_shiftRows]
  exact cell_mod rfl (by omega)

theorem cell_mixWith (a b c d : UInt8) (s : State) (r k : Nat) :
    cell (mixWith a b c d s) r k = mul a (cell s r k) ^^^ mul b (cell s (r + 1) k) ^^^
      mul c (cell s (r + 2) k) ^^^ mul d (cell s (r + 3) k) := by
  have hcolumn : ∀ j (h : ((r % 4 + 4 * (k % 4)) % 4 + j) % 4 + 4 * ((r % 4 + 4 * (k % 4)) / 4) < 16),
      s.get ⟨_, h⟩ = cell s (r + j) k := fun j h => get_eq_cell s h (by omega)
  unfold mixWith
  rw [cell_ofFn]
  simp only [hcolumn]
  rfl

/-- the factors of one byte in a column that is mixed and unmixed -/
theorem sum_mul {a b c d e : UInt8} (h : a ^^^ b ^^^ c ^^^ d = e) (x : UInt8) :
    mul a x ^^^ mul b x ^^^ mul c x ^^^ mul d x = mul e x := by
  rw [← xor_mul, ← xor_mul, ← xor_mul, h]

theorem unmixColumns_mixColumns (s : State) : unmixColumns (mixColumns s) = s := by
  refine ext_cell fun r c => ?_
  have h4 : cell s (r + 4) c = cell s r c := cell_mod (by omega) rfl
  have h5 : cell s (r + 5) c = cell s (r + 1) c := cell_mod (by omega) rfl
  have h6 : cell s (r + 6) c = cell s (r + 2) c := cell_mod (by omega) rfl
  have hfirst : mul 14 2 ^^^ mul 11 1 ^^^ mul 13 1 ^^^ mul 9 3 = 1 := by decide
  have hsecond : mul 14 3 ^^^ mul 11 2 ^^^ mul 13 1 ^^^ mul 9 1 = 0 := by decide
  have hthird : mul 14 1 ^^^ mul 11 3 ^^^ mul 13 2 ^^^ mul 9 1 = 0 := by decide
  have hfourth : mul 14 1 ^^^ mul 11 1 ^^^ mul 13 3 ^^^ mul 9 2 = 0 := by decide
  unfold unmixColumns mixColumns
  simp only [cell_mixWith, Nat.add_assoc, Nat.reduceAdd, h4, h5, h6, mul_xor, ← mul_assoc]
  generalize cell s r c = w
  generalize cell s (r + 1) c = x
  generalize cell s (r + 2) c = y
  generalize cell s (r + 3) c = z
  have hw := sum_mul hfirst w
  have hx := sum_mul hsecond x
  have hy := sum_mul hthird y
  have hz := sum_mul hfourth z
  rw [one_mul] at hw
  rw [zero_mul] at hx hy hz
  calc _ = (mul (mul 14 2) w ^^^ mul (mul 11 1) w ^^^ mul (mul 13 1) w ^^^ mul (mul 9 3) w) ^^^
        (mul (mul 14 3) x ^^^ mul (mul 11 2) x ^^^ mul (mul 13 1) x ^^^ mul (mul 9 1) x) ^^^
        (mul (mul 14 1) y ^^^ mul (mul 11 3) y ^^^ mul (mul 13 2) y ^^^ mul (mul 9 1) y) ^^^
        (mul (mul 14 1) z ^^^ mul (mul 11 1) z ^^^ mul (mul 13 3) z ^^^ mul (mul 9 2) z) := by ac_rfl
    _ = w := by rw [hw, hx, hy, hz, UInt8.xor_zero, UInt8.xor_zero, UInt8.xor_zero]

theorem addKey_addKey (k s : State) : addKey k (addKey k s) = s := by
  refine Vector.ext fun i hi => ?_
  unfold addKey
  rw [Vector.getElem_zipWith, Vector.getElem_zipWith, ← UInt8.xor_assoc, UInt8.xor_self,
    UInt8.zero_xor]

/-! ## rounds -/

/-- the part of a round without mixing and key -/
def half (s : State) : State := shiftRows (s.map sub)

theorem unhalf (s : State) : (unshiftRows (half s)).map unsub = s := by
  have hbytes : unsub ∘ sub = id := by
    funext a
    rw [Function.comp_apply, unsub_sub, id]
  unfold half
  rw [unshiftRows_shiftRows, Vector.map_map, hbytes, Vector.map_id]

theorem decryptRound_half (s k : State) : decryptRound (half (encryptRound s k)) k = half s := by
  unfold decryptRound
  rw [unhalf]
  unfold encryptRound
  rw [addKey_addKey, unmixColumns_mixColumns]
  rfl

/-- the rounds backwards, with the keys in the opposite order -/
theorem foldl_decryptRound (ks : List State) (s : State) :
    ks.reverse.foldl decryptRound (half (ks.foldl encryptRound s)) = half s := by
  induction ks generalizing s with
  | nil => rfl
  | cons k ks ih =>
    rw [List.foldl_cons, List.reverse_cons, List.foldl_append, ih]
    exact decryptRound_half s k

theorem decryptState_encryptState (ks : List State) (s : State) :
    decryptState ks (encryptState ks s) = s := by
  cases ks with
  | nil => rfl
  | cons first rest =>
    rcases List.eq_nil_or_concat rest with rfl | ⟨middle, last, hrest⟩
    · exact addKey_addKey first s
    · rw [List.concat_eq_append] at hrest
      subst hrest
      have hencrypt : encryptState (first :: (middle ++ [last])) s =
          addKey last (half (middle.foldl encryptRound (addKey first s))) := by
        simp [encryptState, half]
      have hdecrypt : ∀ t, decryptState (first :: (middle ++ [last])) t =
          addKey first ((unshiftRows (middle.reverse.foldl decryptRound (addKey last t))).map
            unsub) := by
        intro t
        simp [decryptState]
      rw [hencrypt, hdecrypt, addKey_addKey, foldl_decryptRound, unhalf, addKey_addKey]

theorem decrypt_encrypt (key : Bytes) (b : Block) : decrypt key (encrypt key b) = b := by
  have hstate : ∀ s : State, toState (ofState s) = s := fun s => rfl
  unfold decrypt encrypt
  rw [hstate, decryptState_encryptState]
  rfl

end LedgerClient.Aes
