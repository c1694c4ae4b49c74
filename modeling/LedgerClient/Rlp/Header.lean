import LedgerClient.Bytes
import LedgerClient.Text.Quoted
/-!
# RLP headers

An RLP item is a byte string or a list. Its header says which, and how long the payload is.

* `Rlp.Fault`           what can be wrong with an item, and the name it is reported by;
* `Rlp.header off n`    the header of a payload of `n` bytes (`off` is `0x80` for data, `0xc0` for
                        lists);
* `Rlp.Header.read b`   the header at the front of `b`, whose payload lies inside `b`.

A single byte below `0x80` is its own item, with an empty header.
-/

namespace LedgerClient.Rlp

inductive Fault where
  | tooShort
  | tooBig
  | lengthZeroLead
  | invalidIndirection
  | expectedData
  | expectedList
  | wrongListLength
  | trailingBytes
  | publicKeySize
  | signatureSize
deriving DecidableEq

namespace Fault

def custom (text : String) : String := "Custom(" ++ Text.quote text ++ ")"

/-- the name a fault is reported by -/
def message : Fault → String
  | tooShort => "RlpIsTooShort"
  | tooBig => "RlpIsTooBig"
  | lengthZeroLead => "RlpDataLenWithZeroPrefix"
  | invalidIndirection => "RlpInvalidIndirection"
  | expectedData => "RlpExpectedToBeData"
  | expectedList => "RlpExpectedToBeList"
  | wrongListLength => "RlpIncorrectListLen"
  | trailingBytes => custom "trailing bytes after rlp item"
  | publicKeySize => custom "public key must be 32 bytes"
  | signatureSize => custom "signature must be 64 bytes"

end Fault

/-- a payload of up to 55 bytes has its length in the first byte, a longer one behind it -/
def header (off n : Nat) : Bytes :=
  if n ≤ 55 then [UInt8.ofNat (off + n)]
  else UInt8.ofNat (off + 55 + (Bytes.ofNat n).length) :: Bytes.ofNat n

/-- a header of `size` bytes in front of a payload of `length` bytes -/
structure Header where
  isList : Bool
  size : Nat
  length : Nat
deriving DecidableEq

namespace Header

/-- a header whose length takes the `k` bytes at the front of `r` -/
def readLong (isList : Bool) (k : Nat) (r : Bytes) : Except Fault Header :=
  match r with
  | [] => .error .tooShort
  | x :: _ =>
    if x = 0 then .error .lengthZeroLead
    else if r.length < k then .error .tooShort
    else
      let n := Bytes.toNat (r.take k)
      if n ≤ 55 then .error .invalidIndirection else .ok ⟨isList, 1 + k, n⟩

/-- the header by its first byte -/
def parse : Bytes → Except Fault Header
  | [] => .error .tooShort
  | a :: r =>
    let n := a.toNat
    if n ≤ 0x7f then .ok ⟨false, 0, 1⟩
    else if n ≤ 0xb7 then .ok ⟨false, 1, n - 0x80⟩
    else if n ≤ 0xbf then readLong false (n - 0xb7) r
    else if n ≤ 0xf7 then .ok ⟨true, 1, n - 0xc0⟩
    else readLong true (n - 0xf7) r

/-- the header at the front of `b`, with its payload inside `b` -/
def read (b : Bytes) : Except Fault Header := do
  let h ← parse b
  if h.size + h.length ≤ b.length then return h else .error .tooShort

end Header

end LedgerClient.Rlp
