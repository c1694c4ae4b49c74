import LedgerClient.Cipher.Aes
/-!
# Galois counter mode

Authenticated encryption over any block cipher `e`, with nonces of twelve bytes and tags of
sixteen.

* `Gcm.stream e nonce n`       `n` bytes of key stream;
* `Gcm.tag e nonce aad c`      the tag of the ciphertext `c`;
* `Gcm.sealed`, `Gcm.opened`   encrypt and append the tag; check the tag and decrypt.

Opening returns sixteen bytes less than it is given.
-/

namespace LedgerClient.Gcm

/-- the product in the field of 2¹²⁸ elements, most significant bit first -/
def mul (x y : Nat) : Nat :=
  ((List.range 128).foldl
    (fun (s : Nat × Nat) i =>
      (if x.testBit (127 - i) then s.1 ^^^ s.2 else s.1,
       if s.2 % 2 = 1 then (s.2 / 2) ^^^ (0xe1 <<< 120) else s.2 / 2)) (0, y)).1

/-- the number of a piece of at most sixteen bytes, filled with zeros -/
def blockNat (b : Bytes) : Nat := Bytes.toNat (b ++ List.replicate (16 - b.length) 0)

def hash (h : Nat) (blocks : List Nat) : Nat := blocks.foldl (fun y b => mul (y ^^^ b) h) 0

/-- counter block number `i` of a nonce -/
def counter (nonce : Bytes) (i : Nat) : Block :=
  Octets.ofNat 16 (Bytes.toNat (nonce.take 12) * Nat.pow 2 32 + i % Nat.pow 2 32)

def stream (e : Block → Block) (nonce : Bytes) (n : Nat) : Bytes :=
  ((List.range (n / 16 + 1)).flatMap fun i => (e (counter nonce (i + 2))).bytes).take n

/-- turns plaintext into ciphertext and back -/
def mask (e : Block → Block) (nonce m : Bytes) : Bytes := Bytes.xor m (stream e nonce m.length)

def tag (e : Block → Block) (nonce aad c : Bytes) : Bytes :=
  let h := Bytes.toNat (e (Octets.ofNat 16 0)).bytes
  let blocks := (Bytes.pieces 16 aad).map blockNat ++ (Bytes.pieces 16 c).map blockNat ++
    [8 * aad.length * Nat.pow 2 64 + 8 * c.length]
  Bytes.fixed 16 (hash h blocks ^^^ Bytes.toNat (e (counter nonce 1)).bytes)

def sealed (e : Block → Block) (nonce aad m : Bytes) : Bytes :=
  let c := mask e nonce m
  c ++ tag e nonce aad c

def opened (e : Block → Block) (nonce aad s : Bytes) : Option Bytes :=
  if s.length < 16 then none
  else
    let c := s.take (s.length - 16)
    if s.drop (s.length - 16) = tag e nonce aad c then some (mask e nonce c) else none

/-! ## Lengths -/

theorem length_flatMap_block (f : Nat → Block) (is : List Nat) :
    (is.flatMap fun i => (f i).bytes).length = 16 * is.length := by
  induction is with
  | nil => rfl
  | cons i is ih => rw [List.flatMap_cons, List.length_append, ih, (f i).size,
      List.length_cons]; omega

@[simp] theorem length_stream (e : Block → Block) (nonce : Bytes) (n : Nat) :
    (stream e nonce n).length = n := by
  rw [stream, List.length_take, length_flatMap_block, List.length_range]
  omega

@[simp] theorem length_mask (e : Block → Block) (nonce m : Bytes) :
    (mask e nonce m).length = m.length := by
  simp [mask, Bytes.xor]

theorem length_sealed (e : Block → Block) (nonce aad m : Bytes) :
    (sealed e nonce aad m).length = m.length + 16 := by
  simp [sealed, tag]

theorem length_opened {e : Block → Block} {nonce aad s m : Bytes}
    (h : opened e nonce aad s = some m) : m.length + 16 = s.length := by
  unfold opened at h
  split at h
  · cases h
  · dsimp only at h
    split at h
    · cases h
      simp only [length_mask, List.length_take]
      omega
    · cases h

end LedgerClient.Gcm
