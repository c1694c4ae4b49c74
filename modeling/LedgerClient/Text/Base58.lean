import LedgerClient.Text.Utf8
import LedgerClient.Text.Quoted
/-!
# Base 58

The number of a byte string in base 58, with one `1` for each leading zero byte.

* `Base58.encode b`   the text of a byte string;
* `Base58.decode s`   the byte string of a text, or the first byte that is no digit.
-/

namespace LedgerClient.Text.Base58

inductive Error where
  | invalidCharacter (c : Char) (index : Nat)
  | nonAscii (index : Nat)
deriving DecidableEq

def Error.message : Error → String
  | .invalidCharacter c i =>
    "provided string contained invalid character " ++ quoteChar c ++ " at byte " ++ toString i
  | .nonAscii i => "provided string contained non-ascii character starting at byte " ++ toString i

/-- the digits in order of value: no `0`, `O`, `I` and `l` -/
def alphabet : List Char :=
  "123456789ABCDEFGHJKLMNPQRSTUVWXYZabcdefghijkmnopqrstuvwxyz".toList

def digit (v : Nat) : Char := alphabet.getD v '1'

def digit? (c : Char) : Option Nat := alphabet.idxOf? c

def encodeChars (b : Bytes) : List Char :=
  (b.takeWhile (· = 0)).map (fun _ => digit 0) ++
    (Digits.ofNat 58 (Bytes.toNat b)).map digit

def encode (b : Bytes) : String := String.ofList (encodeChars b)

/-- the digits of a text whose first byte is the `i`-th -/
def readDigits (i : Nat) : Bytes → Except Error (List Nat)
  | [] => .ok []
  | x :: r =>
    if 127 < x then .error (.nonAscii i)
    else
      match digit? (Char.ofNat x.toNat) with
      | none => .error (.invalidCharacter (Char.ofNat x.toNat) i)
      | some v => do
        let vs ← readDigits (i + 1) r
        return v :: vs

/-- the bytes denoted by digits -/
def ofDigits (vs : List Nat) : Bytes :=
  (vs.takeWhile (· = 0)).map (fun _ => 0) ++ Bytes.ofNat (Digits.value 58 vs)

def decode (s : String) : Except Error Bytes := (readDigits 0 (utf8 s)).map ofDigits

end LedgerClient.Text.Base58
