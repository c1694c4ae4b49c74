import LedgerClient.Bytes
/-!
# SHA3-256

The sponge over Keccak-f[1600] with rate 136 bytes and the SHA-3 suffix.

* `Keccak.State`   5 × 5 lanes of 64 bits; lane `(x, y)` is number `x + 5 y`;
* `Keccak.round`   θ, ρ with π, χ, ι;
* `sha3_256 b`     the 32-byte digest of `b`.
-/

namespace LedgerClient.Hash

namespace Keccak

abbrev State := Vector UInt64 25

def lane (s : State) (x y : Fin 5) : UInt64 := s.get ⟨x + 5 * y, by omega⟩

def tabulate (f : Fin 5 → Fin 5 → UInt64) : State :=
  Vector.ofFn fun i => f ⟨i % 5, by omega⟩ ⟨i / 5, by omega⟩

def rotateLeft (w : UInt64) (k : Nat) : UInt64 :=
  if k = 0 then w else (w <<< UInt64.ofNat k) ||| (w >>> UInt64.ofNat (64 - k))

/-- the rotation of lane number `x + 5 y` -/
def offsets : List Nat :=
  [0, 1, 62, 28, 27, 36, 44, 6, 55, 20, 3, 10, 43, 25, 39, 41, 45, 15, 21, 8, 18, 2, 61, 56, 14]

def roundConstants : List UInt64 :=
  [0x0000000000000001, 0x0000000000008082, 0x800000000000808a, 0x8000000080008000,
   0x000000000000808b, 0x0000000080000001, 0x8000000080008081, 0x8000000000008009,
   0x000000000000008a, 0x0000000000000088, 0x0000000080008009, 0x000000008000000a,
   0x000000008000808b, 0x800000000000008b, 0x8000000000008089, 0x8000000000008003,
   0x8000000000008002, 0x8000000000000080, 0x000000000000800a, 0x800000008000000a,
   0x8000000080008081, 0x8000000000008080, 0x0000000080000001, 0x8000000080008008]

def theta (s : State) : State :=
  let c : Vector UInt64 5 := Vector.ofFn fun x =>
    lane s x 0 ^^^ lane s x 1 ^^^ lane s x 2 ^^^ lane s x 3 ^^^ lane s x 4
  let d : Vector UInt64 5 := Vector.ofFn fun x => c.get (x + 4) ^^^ rotateLeft (c.get (x + 1)) 1
  tabulate fun x y => lane s x y ^^^ d.get x

/-- ρ and π together: lane `(x, y)` comes from lane `(x + 3 y, x)`, rotated -/
def rhoPi (s : State) : State :=
  let turned : State := Vector.ofFn fun i => rotateLeft (s.get i) (offsets.getD i 0)
  tabulate fun x y => lane turned (x + 3 * y) x

def chi (s : State) : State :=
  tabulate fun x y => lane s x y ^^^ (~~~ lane s (x + 1) y &&& lane s (x + 2) y)

def iota (rc : UInt64) (s : State) : State := s.set 0 (s.get 0 ^^^ rc)

def round (s : State) (rc : UInt64) : State := iota rc (chi (rhoPi (theta s)))

def permute (s : State) : State := roundConstants.foldl round s

/-- the block is read as little-endian lanes -/
def absorb (s : State) (block : Bytes) : State :=
  let words := ((Bytes.pieces 8 block).map fun w => UInt64.ofNat (Bytes.toNatLittle w)).toArray
  permute (Vector.ofFn fun i => s.get i ^^^ words.getD i 0)

/-- fills the last block: the suffix, zeros, and the final bit -/
def pad (rate : Nat) (b : Bytes) : Bytes :=
  let k := rate - b.length % rate
  if k = 1 then b ++ [0x86] else b ++ 0x06 :: List.replicate (k - 2) 0 ++ [0x80]

def squeeze (s : State) : Bytes := s.toList.flatMap fun w => Bytes.fixedLittle 8 w.toNat

end Keccak

def sha3_256 (b : Bytes) : Bytes :=
  let blocks := Bytes.pieces 136 (Keccak.pad 136 b)
  (Keccak.squeeze (blocks.foldl Keccak.absorb (Vector.replicate 25 0))).take 32

namespace Keccak

theorem length_flatMap_fixedLittle (ws : List UInt64) :
    (ws.flatMap fun w => Bytes.fixedLittle 8 w.toNat).length = 8 * ws.length := by
  induction ws with
  | nil => rfl
  | cons w ws ih => simp only [List.flatMap_cons, List.length_append, ih,
      Bytes.length_fixedLittle, List.length_cons]; omega

end Keccak

@[simp] theorem length_sha3_256 (b : Bytes) : (sha3_256 b).length = 32 := by
  simp only [sha3_256, Keccak.squeeze, List.length_take, Keccak.length_flatMap_fixedLittle,
    Vector.length_toList]
  rfl

end LedgerClient.Hash
