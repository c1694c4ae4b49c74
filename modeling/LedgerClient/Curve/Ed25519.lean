import LedgerClient.Hash.Sha512
/-!
# Ed25519

Signatures on the twisted Edwards curve `-x² + y² = 1 + d x² y²` over the integers modulo
`p = 2²⁵⁵ - 19`.

* `Ed25519.Point`        extended coordinates `(X : Y : Z : T)`;
* `Ed25519.decompress`   a point from 32 bytes; a `y` of `p` or more is reduced, and the sign bit of
                         `x = 0` is not looked at;
* `Ed25519.publicKey`, `Ed25519.sign`   from a 32-byte seed;
* `Ed25519.verify`       `S` must be below the group order, and `R` is compared byte by byte with
                         the encoding of `S B - k A`, without a cofactor.
-/

namespace LedgerClient.Ed25519

/-- the field's modulus -/
def p : Nat := Nat.pow 2 255 - 19

/-- the order of the base point -/
def order : Nat := Nat.pow 2 252 + 27742317777372353535851937790883648493

def add (a b : Nat) : Nat := (a + b) % p

def sub (a b : Nat) : Nat := (a + p - b % p) % p

def mul (a b : Nat) : Nat := a * b % p

/-- `acc * a ^ n`, the low bits of `n` first -/
def powInto : (fuel acc a n : Nat) → Nat
  | 0, acc, _, _ => acc
  | fuel + 1, acc, a, n =>
    if n = 0 then acc
    else powInto fuel (if n % 2 = 1 then mul acc a else acc) (mul a a) (n / 2)

def pow (a n : Nat) : Nat := powInto 256 1 (a % p) n

def inv (a : Nat) : Nat := pow a (p - 2)

/-- the curve's constant, `-121665 / 121666` -/
def d : Nat := mul (sub 0 121665) (inv 121666)

/-- a square root of `-1` -/
def rootMinusOne : Nat := pow 2 ((p - 1) / 4)

structure Point where
  x : Nat
  y : Nat
  z : Nat
  t : Nat

namespace Point

def zero : Point := ⟨0, 1, 1, 0⟩

/-- addition that is complete on this curve -/
def add (a b : Point) : Point :=
  let u := mul (sub a.y a.x) (sub b.y b.x)
  let v := mul (Ed25519.add a.y a.x) (Ed25519.add b.y b.x)
  let c := mul (mul a.t (mul 2 d)) b.t
  let w := mul (mul a.z 2) b.z
  let e := sub v u
  let f := sub w c
  let g := Ed25519.add w c
  let h := Ed25519.add v u
  ⟨mul e f, mul g h, mul f g, mul e h⟩

def neg (a : Point) : Point := ⟨sub 0 a.x, a.y, a.z, sub 0 a.t⟩

/-- `acc + n a`, the low bits of `n` first -/
def smulInto : (fuel : Nat) → (acc a : Point) → (n : Nat) → Point
  | 0, acc, _, _ => acc
  | fuel + 1, acc, a, n =>
    if n = 0 then acc
    else smulInto fuel (if n % 2 = 1 then acc.add a else acc) (a.add a) (n / 2)

def smul (n : Nat) (a : Point) : Point := smulInto 256 zero a n

/-- `y` in 255 bits, and the lowest bit of `x` above it -/
def compress (a : Point) : Bytes :=
  let i := inv a.z
  Bytes.fixedLittle 32 (mul a.y i + mul a.x i % 2 * Nat.pow 2 255)

end Point

/-- a square root of `u / v`, if there is one -/
def root? (u v : Nat) : Option Nat :=
  let r := mul (mul u (pow v 3)) (pow (mul u (pow v 7)) ((p - 5) / 8))
  let check := mul v (mul r r)
  if check = u % p then some r
  else if check = sub 0 u then some (mul r rootMinusOne)
  else none

def decompress (b : Bytes) : Option Point :=
  let n := Bytes.toNatLittle b
  let sign := n / Nat.pow 2 255 % 2
  let y := n % Nat.pow 2 255 % p
  let yy := mul y y
  (root? (sub yy 1) (add (mul d yy) 1)).map fun r =>
    let x := if r % 2 = sign then r else sub 0 r
    ⟨x, y, 1, mul x y⟩

/-- the base point: `y = 4 / 5`, and `x` is even -/
def base : Point := (decompress (Bytes.fixedLittle 32 (mul 4 (inv 5)))).getD Point.zero

/-- the scalar and the nonce key of a seed -/
def expand (seed : Bytes) : Nat × Bytes :=
  let h := Hash.sha512 seed
  let n := Bytes.toNatLittle (h.take 32)
  (n % Nat.pow 2 254 / 8 * 8 + Nat.pow 2 254, h.drop 32)

def hashScalar (b : Bytes) : Nat := Bytes.toNatLittle (Hash.sha512 b) % order

theorem length_compress (a : Point) : a.compress.length = 32 := by simp [Point.compress]

def publicKey (seed : Bytes) : Octets 32 :=
  ⟨(Point.smul (expand seed).1 base).compress, length_compress _⟩

def sign (seed message : Bytes) : Octets 64 :=
  let (a, nonceKey) := expand seed
  let r := hashScalar (nonceKey ++ message)
  let rPoint := Point.smul r base
  let k := hashScalar (rPoint.compress ++ (publicKey seed).bytes ++ message)
  ⟨rPoint.compress ++ Bytes.fixedLittle 32 ((r + k * a) % order), by simp [length_compress]⟩

/-- whether 32 bytes encode a point -/
def isPoint (key : Octets 32) : Bool := (decompress key.bytes).isSome

def verify (key : Octets 32) (message : Bytes) (signature : Octets 64) : Bool :=
  match decompress key.bytes with
  | none => false
  | some a =>
    let r := signature.bytes.take 32
    let s := Bytes.toNatLittle (signature.bytes.drop 32)
    let k := hashScalar (r ++ key.bytes ++ message)
    s < order && ((Point.smul s base).add (Point.smul k a.neg)).compress == r

end LedgerClient.Ed25519
