/-!
# Binary64 numbers as decimal text

* `Double.ofDecimal neg s e`   `± s · 10 ^ e` for a significand of 64 bits: the significand is rounded
  first, then multiplied or divided by a rounded power of ten; `none` if that overflows;
* `Double.shortest bits`       the fewest digits that read back as the same number, of those the
  nearest, and the exponent of the last one;
* `Double.text bits`           positional when the decimal point falls within 16 digits after the
  first or less than five before it, scientific otherwise.

A number is held as its 64 bits.
-/

namespace LedgerClient.Double

/-! ## Reading -/

def powerOfTen (n : Nat) : Float := Float.ofScientific 1 false n

/-- multiplies or divides by powers of ten up to `10 ^ 308` -/
def scale : (fuel : Nat) → Float → Int → Option Float
  | 0, f, _ => some f
  | fuel + 1, f, e =>
    if e.natAbs ≤ 308 then
      if 0 ≤ e then
        let g := f * powerOfTen e.natAbs
        if g.isInf then none else some g
      else some (f / powerOfTen e.natAbs)
    else if f == 0.0 then some f
    else if 0 ≤ e then none
    else scale fuel (f / powerOfTen 308) (e + 308)

def ofDecimal (neg : Bool) (significand : Nat) (e : Int) : Option UInt64 :=
  (scale 8 (UInt64.ofNat significand).toFloat e).map fun f => (if neg then -f else f).toBits

/-- `-n` for a whole number of at most 64 bits -/
def ofNegated (n : Nat) : UInt64 := (-(UInt64.ofNat n).toFloat).toBits

/-! ## Shortest digits -/

/-- `m · 2 ^ q`, and whether the gap below the number is half the gap above it -/
def parts (bits : UInt64) : Nat × Int × Bool :=
  let fraction : Nat := bits.toNat % Nat.pow 2 52
  let e : Nat := bits.toNat / Nat.pow 2 52 % Nat.pow 2 11
  if e = 0 then (fraction, -1074, false)
  else (Nat.pow 2 52 + fraction, (e : Int) - 1075, fraction = 0 && 1 < e)

/-- the number and the ends of the interval that rounds to it, over a common denominator -/
structure Interval where
  low : Nat
  value : Nat
  high : Nat
  scale : Nat
  /-- whether the ends belong to it -/
  closed : Bool

/-- the interval of `m · 2 ^ q` in units of `10 ^ k` -/
def interval (m : Nat) (q : Int) (halved : Bool) (k : Int) : Interval :=
  let up := Nat.pow 2 (q - 2).toNat * Nat.pow 10 (-k).toNat
  { low := (4 * m - if halved then 1 else 2) * up
    value := 4 * m * up
    high := (4 * m + 2) * up
    scale := Nat.pow 2 (2 - q).toNat * Nat.pow 10 k.toNat
    closed := m % 2 = 0 }

def Interval.holds (i : Interval) (j : Nat) : Bool :=
  let x := j * i.scale
  if i.closed then i.low ≤ x && x ≤ i.high else i.low < x && x < i.high

/-- the multiple of the unit that rounds to the number, if there is one: the nearer of the two
neighbours, the even one when both are as near -/
def Interval.hit? (i : Interval) : Option Nat :=
  let below := i.value / i.scale
  let above := below + 1
  match 0 < below && i.holds below, i.holds above with
  | false, false => none
  | true, false => some below
  | false, true => some above
  | true, true =>
    let down := i.value - below * i.scale
    let gap := above * i.scale - i.value
    if down < gap then some below
    else if gap < down then some above
    else if below % 2 = 0 then some below else some above

/-- tries ever finer units -/
def search (m : Nat) (q : Int) (halved : Bool) : (fuel : Nat) → Int → Nat × Int
  | 0, k => (0, k)
  | fuel + 1, k =>
    match (interval m q halved k).hit? with
    | some j => (j, k)
    | none => search m q halved fuel (k - 1)

/-- drops zeros at the end -/
def trimZeros : (fuel : Nat) → Nat → Int → Nat × Int
  | 0, j, k => (j, k)
  | fuel + 1, j, k => if j ≠ 0 ∧ j % 10 = 0 then trimZeros fuel (j / 10) (k + 1) else (j, k)

/-- digits and exponent of a positive number -/
def shortest (bits : UInt64) : Nat × Int :=
  let (m, q, halved) := parts bits
  let scaled := m * Nat.pow 2 (q + 1074).toNat * Nat.pow 10 400 / Nat.pow 2 1074
  let first : Int := (toString scaled).length - 400
  let (j, k) := search m q halved 20 first
  trimZeros 20 j k

/-! ## Text -/

def zeros (n : Nat) : String := String.ofList (List.replicate n '0')

def unsignedText (bits : UInt64) : String :=
  if bits.toNat % Nat.pow 2 63 = 0 then "0.0"
  else
    let (j, k) := shortest bits
    let ds := toString j
    let n : Int := ds.length
    let point := n + k
    if 0 ≤ k ∧ point ≤ 16 then ds ++ zeros k.toNat ++ ".0"
    else if 0 < point ∧ point ≤ 16 then
      String.ofList (ds.toList.take point.toNat) ++ "." ++
        String.ofList (ds.toList.drop point.toNat)
    else if -5 < point ∧ point ≤ 0 then "0." ++ zeros (-point).toNat ++ ds
    else if n = 1 then ds ++ "e" ++ toString (point - 1)
    else
      String.ofList (ds.toList.take 1) ++ "." ++ String.ofList (ds.toList.drop 1) ++ "e" ++
        toString (point - 1)

def text (bits : UInt64) : String :=
  (if Nat.pow 2 63 ≤ bits.toNat then "-" else "") ++
    unsignedText (UInt64.ofNat (bits.toNat % Nat.pow 2 63))

end LedgerClient.Double
