import LedgerClient.Bytes
/-!
# AES

The block cipher with keys of 128 and 256 bits.

* `Aes.mul`, `Aes.inverse`   the field of 256 elements with polynomial `x⁸ + x⁴ + x³ + x + 1`;
* `Aes.roundKeys k`          the key schedule of a 16-byte or 32-byte key;
* `Aes.encrypt k`, `Aes.decrypt k`   one block.

A state holds its columns one after the other: row `r` of column `c` is byte `r + 4 c`.
-/

namespace LedgerClient

/-- the sixteen bytes that a block cipher works on -/
abbrev Block := Octets 16

namespace Aes

abbrev State := Vector UInt8 16

def double (a : UInt8) : UInt8 := if a < 0x80 then a <<< 1 else (a <<< 1) ^^^ 0x1b

/-- shift and add over the eight bits of `b` -/
def mul (a b : UInt8) : UInt8 :=
  ((List.range 8).foldl
    (fun (s : UInt8 × UInt8) i =>
      (if (b >>> UInt8.ofNat i) &&& 1 = 1 then s.1 ^^^ s.2 else s.1, double s.2)) (0, a)).1

/-- `a ^ 254`, the inverse of `a`, and `0` for `0` -/
def inverse (a : UInt8) : UInt8 :=
  ((List.range 7).foldl (fun (s : UInt8 × UInt8) _ => (mul s.1 (mul s.2 s.2), mul s.2 s.2)) (1, a)).1

def rotateLeft8 (a k : UInt8) : UInt8 := (a <<< k) ||| (a >>> (8 - k))

def substitute (a : UInt8) : UInt8 :=
  let b := inverse a
  b ^^^ rotateLeft8 b 1 ^^^ rotateLeft8 b 2 ^^^ rotateLeft8 b 3 ^^^ rotateLeft8 b 4 ^^^ 0x63

/-- `substitute` of every byte -/
def box : Array UInt8 := ((List.range 256).map fun n => substitute (UInt8.ofNat n)).toArray

/-- where every byte stands in `box` -/
def unbox : Array UInt8 :=
  ((List.range 256).map fun n => UInt8.ofNat ((box.idxOf? (UInt8.ofNat n)).getD 0)).toArray

def sub (a : UInt8) : UInt8 := box.getD a.toNat 0

def unsub (a : UInt8) : UInt8 := unbox.getD a.toNat 0

/-- row `r` turns left by `r` places -/
def shiftRows (s : State) : State :=
  Vector.ofFn fun i => s.get ⟨i % 4 + 4 * ((i / 4 + i % 4) % 4), by omega⟩

def unshiftRows (s : State) : State :=
  Vector.ofFn fun i => s.get ⟨i % 4 + 4 * ((i / 4 + 4 - i % 4) % 4), by omega⟩

/-- multiplies each column by the circulant matrix with first row `a b c d` -/
def mixWith (a b c d : UInt8) (s : State) : State :=
  Vector.ofFn fun i =>
    let column := fun k : Nat => s.get ⟨(i % 4 + k) % 4 + 4 * (i / 4), by omega⟩
    mul a (column 0) ^^^ mul b (column 1) ^^^ mul c (column 2) ^^^ mul d (column 3)

def mixColumns (s : State) : State := mixWith 2 3 1 1 s

def unmixColumns (s : State) : State := mixWith 14 11 13 9 s

def addKey (k s : State) : State := Vector.zipWith (· ^^^ ·) k s

/-- appends word `i` of the schedule of a key of `n` words -/
def expandStep (n : Nat) (w : Array Bytes) (i : Nat) : Array Bytes :=
  let last := w.getD (i - 1) []
  let turned :=
    if i % n = 0 then
      Bytes.xor ((last.drop 1 ++ last.take 1).map sub)
        [(List.range (i / n - 1)).foldl (fun r _ => double r) 1, 0, 0, 0]
    else if 6 < n ∧ i % n = 4 then last.map sub
    else last
  w.push (Bytes.xor (w.getD (i - n) []) turned)

def roundKeys (key : Bytes) : List State :=
  let words := Bytes.pieces 4 key
  let n := words.length
  let w := (List.range' n (4 * (n + 7) - n)).foldl (expandStep n) words.toArray
  (List.range (n + 7)).map fun r => Vector.ofFn fun i => (w.getD (4 * r + i / 4) []).getD (i % 4) 0

def encryptRound (s k : State) : State := addKey k (mixColumns (shiftRows (s.map sub)))

def encryptState (keys : List State) (s : State) : State :=
  match keys with
  | [] => s
  | first :: rest =>
    let s := rest.dropLast.foldl encryptRound (addKey first s)
    (rest.getLast?).elim s fun last => addKey last (shiftRows (s.map sub))

def decryptRound (s k : State) : State := unmixColumns (addKey k ((unshiftRows s).map unsub))

def decryptState (keys : List State) (s : State) : State :=
  match keys.reverse with
  | [] => s
  | first :: rest =>
    let s := rest.dropLast.foldl decryptRound (addKey first s)
    (rest.getLast?).elim s fun last => addKey last ((unshiftRows s).map unsub)

def toState (b : Block) : State := ⟨b.bytes.toArray, by simp [b.size]⟩

def ofState (s : State) : Block := ⟨s.toList, by simp⟩

def encrypt (key : Bytes) (b : Block) : Block := ofState (encryptState (roundKeys key) (toState b))

def decrypt (key : Bytes) (b : Block) : Block := ofState (decryptState (roundKeys key) (toState b))

end Aes

end LedgerClient
