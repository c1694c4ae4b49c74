import LedgerClient.Cipher.Aes
import Mathlib.Algebra.Group.Nat.Defs
import Mathlib.Logic.Function.Iterate
/-!
# The field behind AES

Bytes are polynomials over two elements, and `double` is multiplication by `x`. Products are
additive in both factors, so their laws need to be checked for single bits only.

* `sum_induction`      what is additive and holds of single bits holds of all bytes;
* `mul_xor`, `mul_double`   the two laws of products, and from them `mul_comm`, `mul_assoc`;
* `pow a n`            powers; squaring is additive, so eight squarings change nothing;
* `inverse_inverse`    the power 254 of the power 254 is the byte itself.
-/

namespace LedgerClient.Aes

/-! ## sums -/

theorem forall_byte {p : UInt8 → Prop} (h : ∀ n : Fin 256, p (UInt8.ofNat n)) (a : UInt8) : p a := by
  have ha := h ⟨a.toNat, a.toNat_lt⟩
  rw [UInt8.ofNat_toNat] at ha
  exact ha

/-- the byte with bit `i` only -/
def bit (i : Nat) : UInt8 := 1 <<< UInt8.ofNat i

/-- the sum of the bits `is` of `a` -/
def bitSum (a : UInt8) (is : List Nat) : UInt8 := is.foldr (fun i s => (a &&& bit i) ^^^ s) 0

/-- a look at every byte: its bits, their sum, and the highest bit -/
theorem bits_of_byte : ∀ n : Fin 256,
    (∀ i : Fin 8, UInt8.ofNat n &&& bit i = 0 ∨ UInt8.ofNat n &&& bit i = bit i) ∧
    bitSum (UInt8.ofNat n) (List.range 8) = UInt8.ofNat n ∧
    (UInt8.ofNat n < 0x80 ↔ UInt8.ofNat n &&& bit 7 = 0) := by decide +kernel

theorem and_bit (a : UInt8) {i : Nat} (hi : i < 8) : a &&& bit i = 0 ∨ a &&& bit i = bit i :=
  forall_byte (p := fun a => ∀ i : Fin 8, a &&& bit i = 0 ∨ a &&& bit i = bit i)
    (fun n => (bits_of_byte n).1) a ⟨i, hi⟩

theorem bitSum_range (a : UInt8) : bitSum a (List.range 8) = a :=
  forall_byte (p := fun a => bitSum a (List.range 8) = a) (fun n => (bits_of_byte n).2.1) a

theorem lt_iff_and_eq_zero (a : UInt8) : a < 0x80 ↔ a &&& bit 7 = 0 :=
  forall_byte (p := fun a => a < 0x80 ↔ a &&& bit 7 = 0) (fun n => (bits_of_byte n).2.2) a

theorem sum_induction {p : UInt8 → Prop} (hsum : ∀ a b, p a → p b → p (a ^^^ b))
    (hbit : ∀ i < 8, p (bit i)) (a : UInt8) : p a := by
  have hzero : p 0 := by
    have h := hsum (bit 0) (bit 0) (hbit 0 (by decide)) (hbit 0 (by decide))
    rwa [UInt8.xor_self] at h
  have hbits : ∀ is : List Nat, (∀ i ∈ is, i < 8) → p (bitSum a is) := by
    intro is his
    induction is with
    | nil => exact hzero
    | cons i is ih =>
      refine hsum _ _ ?_ (ih fun j hj => his j (List.mem_cons_of_mem i hj))
      rcases and_bit a (his i List.mem_cons_self) with h | h
      · rw [h]
        exact hzero
      · rw [h]
        exact hbit i (his i List.mem_cons_self)
  have hall := hbits (List.range 8) fun i hi => List.mem_range.1 hi
  rwa [bitSum_range] at hall

theorem xor_and (a b c : UInt8) : (a ^^^ b) &&& c = (a &&& c) ^^^ (b &&& c) :=
  UInt8.toNat_inj.1 (by simp [Nat.and_xor_distrib_right])

/-- sums of sums, paired the other way -/
theorem xor_xor_xor_comm (a b c d : UInt8) : (a ^^^ b) ^^^ (c ^^^ d) = (a ^^^ c) ^^^ (b ^^^ d) := by
  rw [UInt8.xor_assoc, UInt8.xor_assoc, ← UInt8.xor_assoc b, ← UInt8.xor_assoc c,
    UInt8.xor_comm b c]

theorem iterate_xor {f : UInt8 → UInt8} (hf : ∀ a b, f (a ^^^ b) = f a ^^^ f b) (n : Nat)
    (a b : UInt8) : f^[n] (a ^^^ b) = f^[n] a ^^^ f^[n] b := by
  induction n generalizing a b with
  | zero => rfl
  | succ n ih =>
    rw [Function.iterate_succ_apply, hf, ih]
    rfl

/-! ## doubling -/

/-- what is added to a byte with the highest bit -/
def carry (a : UInt8) : UInt8 := if a &&& bit 7 = 0 then 0 else 0x1b

theorem double_eq (a : UInt8) : double a = (a <<< 1) ^^^ carry a := by
  unfold double carry
  by_cases h : a &&& bit 7 = 0
  · rw [if_pos ((lt_iff_and_eq_zero a).2 h), if_pos h, UInt8.xor_zero]
  · rw [if_neg (fun hlt => h ((lt_iff_and_eq_zero a).1 hlt)), if_neg h]

theorem carry_xor (a b : UInt8) : carry (a ^^^ b) = carry a ^^^ carry b := by
  unfold carry
  rw [xor_and]
  rcases and_bit a (by decide : 7 < 8) with ha | ha <;>
    rcases and_bit b (by decide : 7 < 8) with hb | hb <;> rw [ha, hb] <;> decide

theorem double_xor (a b : UInt8) : double (a ^^^ b) = double a ^^^ double b := by
  rw [double_eq, double_eq, double_eq, UInt8.shiftLeft_xor, carry_xor, xor_xor_xor_comm]

/-! ## products -/

/-- `d` if bit `i` of `b` is set -/
def pick (b : UInt8) (i : Nat) (d : UInt8) : UInt8 :=
  if (b >>> UInt8.ofNat i) &&& 1 = 1 then d else 0

/-- the part of a product that the bits `is` of `b` give -/
def terms (b : UInt8) : List Nat → UInt8 → UInt8
  | [], _ => 0
  | i :: is, d => pick b i d ^^^ terms b is (double d)

theorem foldl_eq_terms (b : UInt8) (is : List Nat) (s d : UInt8) :
    (is.foldl (fun (s : UInt8 × UInt8) i =>
      (if (b >>> UInt8.ofNat i) &&& 1 = 1 then s.1 ^^^ s.2 else s.1, double s.2)) (s, d)).1 =
    s ^^^ terms b is d := by
  induction is generalizing s d with
  | nil => exact UInt8.xor_zero.symm
  | cons i is ih =>
    rw [List.foldl_cons, ih]
    show _ = s ^^^ (pick b i d ^^^ terms b is (double d))
    unfold pick
    by_cases h : (b >>> UInt8.ofNat i) &&& 1 = 1
    · rw [if_pos h, if_pos h, UInt8.xor_assoc]
    · rw [if_neg h, if_neg h, UInt8.zero_xor]

theorem mul_eq_terms (a b : UInt8) : mul a b = terms b (List.range 8) a := by
  unfold mul
  rw [foldl_eq_terms, UInt8.zero_xor]

theorem pick_xor (a b : UInt8) (i : Nat) (d : UInt8) :
    pick (a ^^^ b) i d = pick a i d ^^^ pick b i d := by
  unfold pick
  rw [UInt8.shiftRight_xor, xor_and]
  have ha := and_bit (a >>> UInt8.ofNat i) (by decide : 0 < 8)
  have hb := and_bit (b >>> UInt8.ofNat i) (by decide : 0 < 8)
  rw [show bit 0 = 1 from rfl] at ha hb
  rcases ha with ha | ha <;> rcases hb with hb | hb <;> rw [ha, hb] <;> simp

theorem terms_xor (a b : UInt8) (is : List Nat) (d : UInt8) :
    terms (a ^^^ b) is d = terms a is d ^^^ terms b is d := by
  induction is generalizing d with
  | nil => exact UInt8.xor_zero.symm
  | cons i is ih =>
    show pick (a ^^^ b) i d ^^^ terms (a ^^^ b) is (double d) = _
    rw [pick_xor, ih, xor_xor_xor_comm]
    rfl

theorem mul_xor (a b c : UInt8) : mul a (b ^^^ c) = mul a b ^^^ mul a c := by
  rw [mul_eq_terms, mul_eq_terms, mul_eq_terms, terms_xor]

theorem bit_shift : ∀ i j : Fin 8, (bit j >>> UInt8.ofNat i) &&& 1 = 1 ↔ i = j := by
  decide

/-- a single bit picks one term -/
theorem terms_bit {j : Nat} (hj : j < 8) (s n : Nat) (d : UInt8) (hn : s + n ≤ 8) :
    terms (bit j) (List.range' s n) d =
      if s ≤ j ∧ j < s + n then double^[j - s] d else 0 := by
  induction n generalizing s d with
  | zero => rw [if_neg (by omega)]; rfl
  | succ n ih =>
    show pick (bit j) s d ^^^ terms (bit j) (List.range' (s + 1) n) (double d) = _
    rw [ih (s + 1) (double d) (by omega)]
    have hpick := bit_shift ⟨s, by omega⟩ ⟨j, hj⟩
    rw [Fin.mk.injEq] at hpick
    unfold pick
    by_cases hsj : s = j
    · have hset := hpick.2 hsj
      subst hsj
      rw [if_pos hset, if_neg (by omega), if_pos (by omega), UInt8.xor_zero, Nat.sub_self]
      rfl
    · rw [if_neg (fun h => hsj (hpick.1 h)), UInt8.zero_xor]
      by_cases hle : s ≤ j ∧ j < s + (n + 1)
      · have hsub : (j - (s + 1)).succ = j - s := by omega
        rw [if_pos (by omega), if_pos hle, ← Function.iterate_succ_apply, hsub]
      · rw [if_neg (by omega), if_neg hle]

theorem mul_bit (a : UInt8) {j : Nat} (hj : j < 8) : mul a (bit j) = double^[j] a := by
  rw [mul_eq_terms, List.range_eq_range', terms_bit hj 0 8 a (Nat.le_refl 8), if_pos (by omega)]
  rfl

theorem mul_one (a : UInt8) : mul a 1 = a := by
  have h := mul_bit a (by decide : 0 < 8)
  rw [show bit 0 = 1 by decide] at h
  exact h

theorem mul_zero (a : UInt8) : mul a 0 = 0 := by
  have h := mul_xor a 1 1
  rwa [UInt8.xor_self, UInt8.xor_self] at h

/-- eight doublings are one reduction by the polynomial -/
theorem double_eight (a : UInt8) :
    double^[8] a = double^[4] a ^^^ double^[3] a ^^^ double^[1] a ^^^ double^[0] a := by
  have hiterate := @iterate_xor double double_xor
  revert a
  refine sum_induction (fun a b ha hb => ?_) (by decide)
  rw [hiterate, hiterate, hiterate, hiterate, hiterate, ha, hb, xor_xor_xor_comm,
    xor_xor_xor_comm (double^[4] a ^^^ double^[3] a), xor_xor_xor_comm (double^[4] a)]

theorem mul_double (a b : UInt8) : mul a (double b) = double (mul a b) := by
  revert b
  refine sum_induction (fun b c hb hc => ?_) (fun i hi => ?_)
  · rw [double_xor, mul_xor, mul_xor, hb, hc, double_xor]
  · by_cases hlt : i < 7
    · have hbit : ∀ i < 7, double (bit i) = bit (i + 1) := by decide
      rw [hbit i hlt, mul_bit a hi, mul_bit a (by omega), Function.iterate_succ_apply']
    · obtain rfl : i = 7 := by omega
      have hlast : double (bit 7) = bit 4 ^^^ bit 3 ^^^ bit 1 ^^^ bit 0 := by decide
      rw [hlast, mul_xor, mul_xor, mul_xor, mul_bit a (by decide), mul_bit a (by decide),
        mul_bit a (by decide), mul_bit a (by decide), mul_bit a (by decide),
        ← Function.iterate_succ_apply' double, double_eight]

theorem terms_xor_right (b : UInt8) (is : List Nat) (c d : UInt8) :
    terms b is (c ^^^ d) = terms b is c ^^^ terms b is d := by
  have hpick : ∀ i c d, pick b i (c ^^^ d) = pick b i c ^^^ pick b i d := by
    intro i c d
    unfold pick
    split
    · rfl
    · exact UInt8.xor_zero.symm
  induction is generalizing c d with
  | nil => exact UInt8.xor_zero.symm
  | cons i is ih =>
    show pick b i (c ^^^ d) ^^^ terms b is (double (c ^^^ d)) = _
    rw [hpick, double_xor, ih, xor_xor_xor_comm]
    rfl

theorem xor_mul (a b c : UInt8) : mul (a ^^^ b) c = mul a c ^^^ mul b c := by
  rw [mul_eq_terms, mul_eq_terms, mul_eq_terms, terms_xor_right]

theorem bit_eq : ∀ i < 8, bit i = double^[i] 1 := by decide

theorem mul_comm (a b : UInt8) : mul a b = mul b a := by
  revert b
  refine sum_induction (fun b c hb hc => ?_) (fun j hj => ?_)
  · rw [mul_xor, xor_mul, hb, hc]
  · revert a
    refine sum_induction (fun b c hb hc => ?_) (fun i hi => ?_)
    · rw [mul_xor, xor_mul, hb, hc]
    · rw [mul_bit _ hj, mul_bit _ hi, bit_eq i hi, bit_eq j hj, ← Function.iterate_add_apply,
        ← Function.iterate_add_apply, Nat.add_comm]

theorem mul_assoc (a b c : UInt8) : mul (mul a b) c = mul a (mul b c) := by
  have hiterate : ∀ n, mul a (double^[n] b) = double^[n] (mul a b) := by
    intro n
    induction n with
    | zero => rfl
    | succ n ih => rw [Function.iterate_succ_apply', mul_double, ih, Function.iterate_succ_apply']
  revert c
  refine sum_induction (fun c d hc hd => ?_) (fun i hi => ?_)
  · rw [mul_xor, mul_xor, mul_xor, hc, hd]
  · rw [mul_bit _ hi, mul_bit _ hi, hiterate]

theorem one_mul (a : UInt8) : mul 1 a = a := by rw [mul_comm, mul_one]

theorem zero_mul (a : UInt8) : mul 0 a = 0 := by rw [mul_comm, mul_zero]

/-! ## powers -/

def pow (a : UInt8) : Nat → UInt8
  | 0 => 1
  | n + 1 => mul a (pow a n)

theorem mul_pow_pow (a : UInt8) (m n : Nat) : mul (pow a m) (pow a n) = pow a (m + n) := by
  induction m with
  | zero => rw [Nat.zero_add]; exact one_mul _
  | succ m ih =>
    rw [Nat.succ_add]
    show mul (mul a (pow a m)) (pow a n) = mul a (pow a (m + n))
    rw [mul_assoc, ih]

theorem pow_pow (a : UInt8) (m n : Nat) : pow (pow a m) n = pow a (m * n) := by
  induction n with
  | zero => rfl
  | succ n ih =>
    show mul (pow a m) (pow (pow a m) n) = _
    rw [ih, mul_pow_pow, Nat.mul_succ, Nat.add_comm]

/-- each step doubles the second exponent and adds it to the first -/
theorem foldl_eq_pow (a : UInt8) (is : List Nat) (m n : Nat) :
    is.foldl (fun (s : UInt8 × UInt8) _ => (mul s.1 (mul s.2 s.2), mul s.2 s.2)) (pow a m, pow a n) =
      (pow a (m + n * (2 ^ (is.length + 1) - 2)), pow a (n * 2 ^ is.length)) := by
  induction is generalizing m n with
  | nil => simp
  | cons i is ih =>
    rw [List.foldl_cons]
    show List.foldl _ (mul (pow a m) (mul (pow a n) (pow a n)), mul (pow a n) (pow a n)) is = _
    rw [mul_pow_pow, mul_pow_pow, ih, List.length_cons]
    have hpos : 2 ≤ 2 ^ (is.length + 1) := Nat.le_self_pow (Nat.succ_ne_zero _) 2
    have hfirst : m + (n + n) + (n + n) * (2 ^ (is.length + 1) - 2) =
        m + n * (2 ^ (is.length + 1 + 1) - 2) := by
      rw [Nat.pow_succ 2 (is.length + 1), ← Nat.mul_two n, Nat.mul_assoc, Nat.add_assoc, ← Nat.mul_add]
      congr 2
      omega
    have hsecond : (n + n) * 2 ^ is.length = n * 2 ^ (is.length + 1) := by
      rw [← Nat.mul_two, Nat.mul_assoc, Nat.pow_succ, Nat.mul_comm 2]
    rw [hfirst, hsecond]

theorem inverse_eq_pow (a : UInt8) : inverse a = pow a 254 := by
  have h := foldl_eq_pow a (List.range 7) 0 1
  rw [show pow a 0 = 1 from rfl, show pow a 1 = a from mul_one a] at h
  have hexponent : 0 + 1 * (2 ^ (7 + 1) - 2) = 254 := by decide
  have hfirst := congrArg Prod.fst h
  rw [List.length_range, hexponent] at hfirst
  exact hfirst

/-! ## squares -/

def square (a : UInt8) : UInt8 := mul a a

theorem square_xor (a b : UInt8) : square (a ^^^ b) = square a ^^^ square b := by
  unfold square
  rw [mul_xor, xor_mul, xor_mul, mul_comm b a, UInt8.xor_comm (mul a b) (mul b b),
    xor_xor_xor_comm, UInt8.xor_self, UInt8.xor_zero]

theorem pow_two_pow (a : UInt8) (n : Nat) : pow a (2 ^ n) = square^[n] a := by
  induction n with
  | zero => exact mul_one a
  | succ n ih =>
    rw [Nat.pow_succ, Nat.mul_two, ← mul_pow_pow, ih, Function.iterate_succ_apply']
    rfl

/-- squaring eight times changes nothing -/
theorem pow_256 (a : UInt8) : pow a 256 = a := by
  rw [show 256 = 2 ^ 8 from rfl, pow_two_pow]
  revert a
  refine sum_induction (fun a b ha hb => ?_) (by decide +kernel)
  rw [iterate_xor square_xor, ha, hb]

theorem inverse_inverse (a : UInt8) : inverse (inverse a) = a := by
  rw [inverse_eq_pow, inverse_eq_pow, pow_pow]
  calc pow a (254 * 254) = mul (pow (pow a 256) 252) (pow a 4) := by rw [pow_pow, mul_pow_pow]
    _ = mul (pow a 252) (pow a 4) := by rw [pow_256]
    _ = pow a 256 := mul_pow_pow a 252 4
    _ = a := pow_256 a

end LedgerClient.Aes
