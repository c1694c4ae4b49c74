/-!
# Positional digits

* `Digits.value b ds`   the number that the digits `ds` denote in base `b`, most significant first;
* `Digits.ofNat b n`    the digits of `n` in base `b`, without leading zeros (none for `0`);
* `Digits.fixed b w n`  the `w` lowest digits of `n`, zeros in front kept.

Bytes, base 58 and decimal text all read and write their numbers through these three.
-/

namespace LedgerClient.Digits

/-- the number denoted by digits in base `b`, most significant first -/
def value (b : Nat) (ds : List Nat) : Nat := ds.foldl (fun n d => n * b + d) 0

/-- least significant digit first, at most `fuel` of them -/
def little (b : Nat) : (fuel n : Nat) → List Nat
  | 0, _ => []
  | fuel + 1, n => if n = 0 then [] else n % b :: little b fuel (n / b)

/-- the digits of `n`; `n` itself bounds their count when `2 ≤ b` -/
def ofNat (b n : Nat) : List Nat := (little b n n).reverse

/-- exactly `w` digits, least significant first -/
def littleFixed (b : Nat) : (w n : Nat) → List Nat
  | 0, _ => []
  | w + 1, n => n % b :: littleFixed b w (n / b)

/-- exactly `w` digits, most significant first -/
def fixed (b w n : Nat) : List Nat := (littleFixed b w n).reverse

theorem value_nil (b : Nat) : value b [] = 0 := rfl

theorem value_append_singleton (b : Nat) (ds : List Nat) (d : Nat) :
    value b (ds ++ [d]) = value b ds * b + d := by
  simp [value]

@[simp] theorem length_littleFixed (b w n : Nat) : (littleFixed b w n).length = w := by
  induction w generalizing n with
  | zero => rfl
  | succ w ih => simp [littleFixed, ih]

@[simp] theorem length_fixed (b w n : Nat) : (fixed b w n).length = w := by
  simp [fixed]

theorem value_reverse_little {b : Nat} (hb : 2 ≤ b) (fuel n : Nat) (h : n ≤ fuel) :
    value b (little b fuel n).reverse = n := by
  induction fuel generalizing n with
  | zero => simp [little, value]; omega
  | succ fuel ih =>
    by_cases h0 : n = 0
    · simp [little, h0, value]
    · have hlt : n / b < n := Nat.div_lt_self (by omega) (by omega)
      rw [little, if_neg h0, List.reverse_cons, value_append_singleton, ih _ (by omega)]
      exact Nat.div_add_mod' n b

/-- reading the digits of a number gives the number -/
theorem value_ofNat {b : Nat} (hb : 2 ≤ b) (n : Nat) : value b (ofNat b n) = n :=
  value_reverse_little hb n n (Nat.le_refl n)

end LedgerClient.Digits
