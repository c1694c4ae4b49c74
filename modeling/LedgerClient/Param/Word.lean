import LedgerClient.Bytes
/-!
# Words of eight bytes

* `Word.ofBytes b`   the big-endian word of `b`: fewer than eight bytes count as its low end, and of
  more than eight only the first eight are read;
* `Word.signed w`    the same bits in two's complement.
-/

namespace LedgerClient.Word

def bytes (n : Nat) : Bytes := Bytes.fixed 8 n

def ofBytes (b : Bytes) : Nat := Bytes.toNat (b.take 8)

def signed (w : Nat) : Int := if w < Nat.pow 2 63 then w else (w : Int) - Nat.pow 2 64

/-- the word with the two's complement of `i` -/
def ofSigned (i : Int) : Nat := (i % Nat.pow 2 64).toNat

end LedgerClient.Word
