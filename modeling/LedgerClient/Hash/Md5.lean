import LedgerClient.Hash.Blocks
/-!
# MD5

* `Md5.compress`   sixty-four steps over a block;
* `md5 b`          the 16-byte digest of `b`.
-/

namespace LedgerClient.Hash

namespace Md5

structure Chain where
  a : UInt32
  b : UInt32
  c : UInt32
  d : UInt32

/-- the constant of each step, from the sines of 1 to 64 -/
def constants : List UInt32 :=
  [0xd76aa478, 0xe8c7b756, 0x242070db, 0xc1bdceee, 0xf57c0faf, 0x4787c62a,
   0xa8304613, 0xfd469501, 0x698098d8, 0x8b44f7af, 0xffff5bb1, 0x895cd7be,
   0x6b901122, 0xfd987193, 0xa679438e, 0x49b40821, 0xf61e2562, 0xc040b340,
   0x265e5a51, 0xe9b6c7aa, 0xd62f105d, 0x02441453, 0xd8a1e681, 0xe7d3fbc8,
   0x21e1cde6, 0xc33707d6, 0xf4d50d87, 0x455a14ed, 0xa9e3e905, 0xfcefa3f8,
   0x676f02d9, 0x8d2a4c8a, 0xfffa3942, 0x8771f681, 0x6d9d6122, 0xfde5380c,
   0xa4beea44, 0x4bdecfa9, 0xf6bb4b60, 0xbebfbc70, 0x289b7ec6, 0xeaa127fa,
   0xd4ef3085, 0x04881d05, 0xd9d4d039, 0xe6db99e5, 0x1fa27cf8, 0xc4ac5665,
   0xf4292244, 0x432aff97, 0xab9423a7, 0xfc93a039, 0x655b59c3, 0x8f0ccc92,
   0xffeff47d, 0x85845dd1, 0x6fa87e4f, 0xfe2ce6e0, 0xa3014314, 0x4e0811a1,
   0xf7537e82, 0xbd3af235, 0x2ad7d2bb, 0xeb86d391]

/-- the four shifts of each round, taken in turn -/
def shift (j : Nat) : UInt32 :=
  match j / 16 with
  | 0 => [7, 12, 17, 22].getD (j % 4) 0
  | 1 => [5, 9, 14, 20].getD (j % 4) 0
  | 2 => [4, 11, 16, 23].getD (j % 4) 0
  | _ => [6, 10, 15, 21].getD (j % 4) 0

/-- the word used in step `j` -/
def wordOf (j : Nat) : Nat :=
  match j / 16 with
  | 0 => j
  | 1 => (5 * j + 1) % 16
  | 2 => (3 * j + 5) % 16
  | _ => 7 * j % 16

def mix (round : Nat) (x y z : UInt32) : UInt32 :=
  match round with
  | 0 => (x &&& y) ||| (~~~ x &&& z)
  | 1 => (z &&& x) ||| (~~~ z &&& y)
  | 2 => x ^^^ y ^^^ z
  | _ => y ^^^ (x ||| ~~~ z)

def step (x : Array UInt32) (s : Chain) (k : UInt32) (j : Nat) : Chain :=
  { a := s.d
    b := s.b + rotateLeft32 (s.a + mix (j / 16) s.b s.c s.d + k + x.getD (wordOf j) 0) (shift j)
    c := s.b
    d := s.c }

def compress (h : Chain) (block : Bytes) : Chain :=
  let x := words32Little block
  let s := constants.zipIdx.foldl (fun s (k, j) => step x s k j) h
  ⟨h.a + s.a, h.b + s.b, h.c + s.c, h.d + s.d⟩

def start : Chain := ⟨0x67452301, 0xEFCDAB89, 0x98BADCFE, 0x10325476⟩

def Chain.toBytes (s : Chain) : Bytes :=
  Bytes.fixedLittle 4 s.a.toNat ++ Bytes.fixedLittle 4 s.b.toNat ++ Bytes.fixedLittle 4 s.c.toNat ++
    Bytes.fixedLittle 4 s.d.toNat

end Md5

def md5 (b : Bytes) : Bytes :=
  let blocks := Bytes.pieces 64 (padded 64 8 (Bytes.fixedLittle 8) b)
  (blocks.foldl Md5.compress Md5.start).toBytes

end LedgerClient.Hash
