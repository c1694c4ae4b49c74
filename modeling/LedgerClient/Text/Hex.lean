import LedgerClient.Text.Utf8
import LedgerClient.Text.Numeral
import LedgerClient.Text.Quoted
/-!
# Hexadecimal bytes

* `Hex.encode b`   two lower-case digits a byte;
* `Hex.decode s`   the bytes of digits of either case, or the first fault.

An odd number of bytes is reported before a wrong character. A wrong character is shown as the
code point of its byte.
-/

namespace LedgerClient.Text.Hex

inductive Error where
  | oddLength
  | invalidCharacter (c : Char) (position : Nat)
deriving DecidableEq

def Error.message : Error → String
  | .oddLength => "Odd number of digits"
  | .invalidCharacter c i => "Invalid character " ++ quoteChar c ++ " at position " ++ toString i

def digit (n : Nat) : Char := Nat.digitChar n

def encodeChars (b : Bytes) : List Char :=
  b.flatMap fun x => [digit (x.toNat / 16), digit (x.toNat % 16)]

def encode (b : Bytes) : String := String.ofList (encodeChars b)

/-- the digit in the byte `x` at position `i` -/
def nibble (x : UInt8) (i : Nat) : Except Error Nat :=
  match digit? 16 (Char.ofNat x.toNat) with
  | some v => .ok v
  | none => .error (.invalidCharacter (Char.ofNat x.toNat) i)

/-- reads pairs of digits, the first at position `i` -/
def decodePairs (i : Nat) : Bytes → Except Error Bytes
  | [] => .ok []
  | [_] => .error .oddLength
  | x :: y :: r => do
    let hi ← nibble x i
    let lo ← nibble y (i + 1)
    let rest ← decodePairs (i + 2) r
    return UInt8.ofNat (hi * 16 + lo) :: rest

def decode (s : String) : Except Error Bytes :=
  let b := utf8 s
  if b.length % 2 = 1 then .error .oddLength else decodePairs 0 b

end LedgerClient.Text.Hex
