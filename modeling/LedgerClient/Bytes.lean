import LedgerClient.Digits
/-!
# Byte strings

A byte string is a list of octets, most significant first wherever it denotes a number.

* `Bytes.toNat`, `Bytes.ofNat`   the number of a byte string and its shortest byte string;
* `Bytes.fixed w n`              `n` in exactly `w` bytes;
* `Octets n`                     a byte string of exactly `n` bytes, such as a key.
-/

namespace LedgerClient

abbrev Bytes := List UInt8

namespace Bytes

/-- the big-endian value -/
def toNat (b : Bytes) : Nat := Digits.value 256 (b.map UInt8.toNat)

/-- the shortest big-endian form, empty for zero -/
def ofNat (n : Nat) : Bytes := (Digits.ofNat 256 n).map UInt8.ofNat

/-- big-endian in exactly `w` bytes, higher bytes dropped -/
def fixed (w n : Nat) : Bytes := (Digits.fixed 256 w n).map UInt8.ofNat

/-- little-endian in exactly `w` bytes, higher bytes dropped -/
def fixedLittle (w n : Nat) : Bytes := (Digits.littleFixed 256 w n).map UInt8.ofNat

/-- the little-endian value -/
def toNatLittle (b : Bytes) : Nat := toNat b.reverse

/-- bytewise exclusive or, as long as the shorter one -/
def xor (a b : Bytes) : Bytes := List.zipWith (· ^^^ ·) a b

/-- consecutive pieces of `w` bytes, the last one possibly shorter; `fuel` bounds their count -/
def piecesFrom (w : Nat) : (fuel : Nat) → Bytes → List Bytes
  | 0, _ => []
  | _ + 1, [] => []
  | fuel + 1, b => b.take w :: piecesFrom w fuel (b.drop w)

/-- consecutive pieces of `w` bytes, the last one possibly shorter -/
def pieces (w : Nat) (b : Bytes) : List Bytes := piecesFrom w b.length b

@[simp] theorem length_fixed (w n : Nat) : (fixed w n).length = w := by simp [fixed]

@[simp] theorem length_fixedLittle (w n : Nat) : (fixedLittle w n).length = w := by
  simp [fixedLittle]

theorem toNat_nil : toNat [] = 0 := rfl

end Bytes

/-- a byte string of exactly `n` bytes -/
structure Octets (n : Nat) where
  bytes : Bytes
  size : bytes.length = n
deriving DecidableEq

namespace Octets

/-- checks the length -/
def ofBytes? (n : Nat) (b : Bytes) : Option (Octets n) :=
  if h : b.length = n then some ⟨b, h⟩ else none

/-- `x` in big-endian form -/
def ofNat (n x : Nat) : Octets n := ⟨Bytes.fixed n x, Bytes.length_fixed n x⟩

theorem ofBytes?_eq_some_iff {n : Nat} {b : Bytes} {o : Octets n} :
    ofBytes? n b = some o ↔ b = o.bytes := by
  unfold ofBytes?
  split
  · constructor
    · intro h; cases h; rfl
    · intro h; cases o; cases h; rfl
  · rename_i h
    constructor
    · intro h'; cases h'
    · intro h'; exact absurd (h' ▸ o.size) h

@[simp] theorem ofBytes?_bytes {n : Nat} (o : Octets n) : ofBytes? n o.bytes = some o :=
  ofBytes?_eq_some_iff.2 rfl

instance {n : Nat} : Inhabited (Octets n) := ⟨ofNat n 0⟩

end Octets

end LedgerClient
