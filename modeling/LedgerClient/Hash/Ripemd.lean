import LedgerClient.Hash.Blocks
/-!
# RIPEMD-160

Two lines of eighty steps over the same block, combined at its end.

* `Ripemd.Chain`   the five chaining words;
* `Ripemd.line`    one line of eighty steps;
* `ripemd160 b`    the 20-byte digest of `b`.
-/

namespace LedgerClient.Hash

namespace Ripemd

structure Chain where
  a : UInt32
  b : UInt32
  c : UInt32
  d : UInt32
  e : UInt32

/-- the word order of the left line -/
def leftWords : List Nat :=
  [0, 1, 2, 3, 4, 5, 6, 7, 8, 9, 10, 11, 12, 13, 14, 15,
   7, 4, 13, 1, 10, 6, 15, 3, 12, 0, 9, 5, 2, 14, 11, 8,
   3, 10, 14, 4, 9, 15, 8, 1, 2, 7, 0, 6, 13, 11, 5, 12,
   1, 9, 11, 10, 0, 8, 12, 4, 13, 3, 7, 15, 14, 5, 6, 2,
   4, 0, 5, 9, 7, 12, 2, 10, 14, 1, 3, 8, 11, 6, 15, 13]

def rightWords : List Nat :=
  [5, 14, 7, 0, 9, 2, 11, 4, 13, 6, 15, 8, 1, 10, 3, 12,
   6, 11, 3, 7, 0, 13, 5, 10, 14, 15, 8, 12, 4, 9, 1, 2,
   15, 5, 1, 3, 7, 14, 6, 9, 11, 8, 12, 2, 10, 0, 4, 13,
   8, 6, 4, 1, 3, 11, 15, 0, 5, 12, 2, 13, 9, 7, 10, 14,
   12, 15, 10, 4, 1, 5, 8, 7, 6, 2, 13, 14, 0, 3, 9, 11]

def leftShifts : List UInt32 :=
  [11, 14, 15, 12, 5, 8, 7, 9, 11, 13, 14, 15, 6, 7, 9, 8,
   7, 6, 8, 13, 11, 9, 7, 15, 7, 12, 15, 9, 11, 7, 13, 12,
   11, 13, 6, 7, 14, 9, 13, 15, 14, 8, 13, 6, 5, 12, 7, 5,
   11, 12, 14, 15, 14, 15, 9, 8, 9, 14, 5, 6, 8, 6, 5, 12,
   9, 15, 5, 11, 6, 8, 13, 12, 5, 12, 13, 14, 11, 8, 5, 6]

def rightShifts : List UInt32 :=
  [8, 9, 9, 11, 13, 15, 15, 5, 7, 7, 8, 11, 14, 14, 12, 6,
   9, 13, 15, 7, 12, 8, 9, 11, 7, 7, 12, 7, 6, 15, 13, 11,
   9, 7, 15, 11, 8, 6, 6, 14, 12, 13, 5, 14, 13, 13, 7, 5,
   15, 5, 8, 11, 14, 14, 6, 14, 6, 9, 12, 9, 12, 5, 15, 8,
   8, 5, 12, 9, 12, 5, 14, 6, 8, 13, 6, 5, 15, 13, 11, 11]

def leftConstants : List UInt32 := [0, 0x5A827999, 0x6ED9EBA1, 0x8F1BBCDC, 0xA953FD4E]

def rightConstants : List UInt32 := [0x50A28BE6, 0x5C4DD124, 0x6D703EF3, 0x7A6D76E9, 0]

/-- the mixing function of a sixteen-step round -/
def mix (round : Nat) (x y z : UInt32) : UInt32 :=
  match round with
  | 0 => x ^^^ y ^^^ z
  | 1 => (x &&& y) ||| (~~~ x &&& z)
  | 2 => (x ||| ~~~ y) ^^^ z
  | 3 => (x &&& z) ||| (y &&& ~~~ z)
  | _ => x ^^^ (y ||| ~~~ z)

def step (f : UInt32 → UInt32 → UInt32 → UInt32) (s : Chain) (x k shift : UInt32) : Chain :=
  { a := s.e
    b := rotateLeft32 (s.a + f s.b s.c s.d + x + k) shift + s.e
    c := s.b
    d := rotateLeft32 s.c 10
    e := s.d }

/-- eighty steps; `turn` gives the mixing function of a round -/
def line (turn : Nat → Nat) (words : List Nat) (shifts ks : List UInt32) (x : Array UInt32)
    (s : Chain) : Chain :=
  ((words.zip shifts).zipIdx).foldl
    (fun s (ws, j) =>
      step (mix (turn (j / 16))) s (x.getD ws.1 0) (ks.getD (j / 16) 0) ws.2) s

def compress (h : Chain) (block : Bytes) : Chain :=
  let x := words32Little block
  let l := line (fun r => r) leftWords leftShifts leftConstants x h
  let r := line (fun r => 4 - r) rightWords rightShifts rightConstants x h
  { a := h.b + l.c + r.d
    b := h.c + l.d + r.e
    c := h.d + l.e + r.a
    d := h.e + l.a + r.b
    e := h.a + l.b + r.c }

def start : Chain := ⟨0x67452301, 0xEFCDAB89, 0x98BADCFE, 0x10325476, 0xC3D2E1F0⟩

def Chain.toBytes (s : Chain) : Bytes :=
  Bytes.fixedLittle 4 s.a.toNat ++ Bytes.fixedLittle 4 s.b.toNat ++ Bytes.fixedLittle 4 s.c.toNat ++
    Bytes.fixedLittle 4 s.d.toNat ++ Bytes.fixedLittle 4 s.e.toNat

@[simp] theorem Chain.length_toBytes (s : Chain) : s.toBytes.length = 20 := by simp [toBytes]

end Ripemd

def ripemd160 (b : Bytes) : Bytes :=
  let blocks := Bytes.pieces 64 (padded 64 8 (Bytes.fixedLittle 8) b)
  (blocks.foldl Ripemd.compress Ripemd.start).toBytes

@[simp] theorem length_ripemd160 (b : Bytes) : (ripemd160 b).length = 20 := by simp [ripemd160]

end LedgerClient.Hash
