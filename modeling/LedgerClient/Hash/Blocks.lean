import LedgerClient.Bytes
/-!
# Message blocks with a length field

The padding shared by RIPEMD-160, MD5 and SHA-512: a bit, zeros, and the length in bits.

* `padded size lengthBytes b`   `b` filled to whole blocks, the length field built by `lengthBytes`;
* `words32Little`, `words64`    a block as little-endian 32-bit or big-endian 64-bit words.
-/

namespace LedgerClient.Hash

/-- fills `b` to a multiple of `size` bytes, ending in a field of `field` bytes -/
def padded (size field : Nat) (encode : Nat → Bytes) (b : Bytes) : Bytes :=
  let zeros := (2 * size - 1 - field - b.length % size) % size
  b ++ 0x80 :: List.replicate zeros 0 ++ encode (8 * b.length)

def words32Little (block : Bytes) : Array UInt32 :=
  ((Bytes.pieces 4 block).map fun w => UInt32.ofNat (Bytes.toNatLittle w)).toArray

def words64 (block : Bytes) : Array UInt64 :=
  ((Bytes.pieces 8 block).map fun w => UInt64.ofNat (Bytes.toNat w)).toArray

def rotateLeft32 (w : UInt32) (k : UInt32) : UInt32 := (w <<< k) ||| (w >>> (32 - k))

def rotateRight64 (w : UInt64) (k : UInt64) : UInt64 := (w >>> k) ||| (w <<< (64 - k))

end LedgerClient.Hash
