import LedgerClient.Bytes
import Mathlib.Data.Nat.Digits.Lemmas
/-!
# Positional digits, both ways

The digits of a number and the number of some digits are the library's `Nat.digits` and
`Nat.ofDigits` with the most significant digit in front, so every law comes from there.

* `Digits.value_eq_ofDigits`, `Digits.ofNat_eq_digits`   the translation;
* `Digits.ofNat_value`    digits without a leading zero are the digits of their number;
* `Bytes.toNat_ofNat`, `Bytes.ofNat_toNat`, `Bytes.toNat_fixed`, `Bytes.fixed_toNat`   the same for
  byte strings;
* `Bytes.length_ofNat_le_iff`   how many bytes a number takes;
* `Bytes.pieces_flatten_iff`    byte strings in a row are cut apart again when all have the width.
-/

namespace LedgerClient

namespace Digits

theorem value_eq_ofDigits (b : Nat) (ds : List Nat) : value b ds = Nat.ofDigits b ds.reverse := by
  induction ds using List.reverseRecOn with
  | nil => rfl
  | append_singleton ds d ih =>
    rw [value_append_singleton, List.reverse_concat, Nat.ofDigits_cons, ih, Nat.mul_comm,
      Nat.add_comm]

theorem value_cons (b d : Nat) (ds : List Nat) :
    value b (d :: ds) = d * b ^ ds.length + value b ds := by
  rw [value_eq_ofDigits, value_eq_ofDigits, List.reverse_cons, Nat.ofDigits_append,
    Nat.ofDigits_singleton, List.length_reverse, Nat.add_comm, Nat.mul_comm]

theorem little_eq_digits {b : Nat} (hb : 2 ≤ b) (fuel n : Nat) (h : n ≤ fuel) :
    little b fuel n = Nat.digits b n := by
  induction fuel generalizing n with
  | zero =>
    obtain rfl : n = 0 := by omega
    simp [little]
  | succ fuel ih =>
    by_cases h0 : n = 0
    · simp [little, h0]
    · have hlt : n / b < n := Nat.div_lt_self (by omega) (by omega)
      have hd : Nat.digits b n = n % b :: Nat.digits b (n / b) :=
        Nat.digits_def' (by omega) (by omega)
      rw [little, if_neg h0, ih _ (by omega), hd]

theorem ofNat_eq_digits {b : Nat} (hb : 2 ≤ b) (n : Nat) :
    ofNat b n = (Nat.digits b n).reverse := by
  rw [ofNat, little_eq_digits hb n n (Nat.le_refl n)]

theorem lt_of_mem_ofNat {b : Nat} (hb : 2 ≤ b) {n d : Nat} (h : d ∈ ofNat b n) : d < b := by
  rw [ofNat_eq_digits hb, List.mem_reverse] at h
  exact Nat.digits_lt_base (by omega) h

theorem head?_ofNat_ne_zero {b : Nat} (hb : 2 ≤ b) (n : Nat) : (ofNat b n).head? ≠ some 0 := by
  rw [ofNat_eq_digits hb, List.head?_reverse]
  intro h
  by_cases h0 : n = 0
  · simp [h0] at h
  · have hne : Nat.digits b n ≠ [] := Nat.digits_ne_nil_iff_ne_zero.2 h0
    rw [List.getLast?_eq_some_getLast hne] at h
    exact Nat.getLast_digit_ne_zero b h0 (Option.some.inj h)

theorem value_lt {b : Nat} (hb : 2 ≤ b) {ds : List Nat} (h : ∀ d ∈ ds, d < b) :
    value b ds < b ^ ds.length := by
  rw [value_eq_ofDigits, ← List.length_reverse]
  exact Nat.ofDigits_lt_base_pow_length (by omega) (by simpa using h)

/-- digits without a leading zero are the digits of their number -/
theorem ofNat_value {b : Nat} (hb : 2 ≤ b) {ds : List Nat} (h : ∀ d ∈ ds, d < b)
    (h0 : ds.head? ≠ some 0) : ofNat b (value b ds) = ds := by
  rw [ofNat_eq_digits hb, value_eq_ofDigits, Nat.digits_ofDigits b (by omega), List.reverse_reverse]
  · simpa using h
  · intro hne hl
    rw [List.getLast_reverse] at hl
    rw [List.head_eq_iff_head?_eq_some] at hl
    exact h0 hl

theorem value_zeros_append (b k : Nat) (ds : List Nat) :
    value b (List.replicate k 0 ++ ds) = value b ds := by
  rw [value_eq_ofDigits, value_eq_ofDigits, List.reverse_append, List.reverse_replicate,
    Nat.ofDigits_append_replicate_zero]

theorem length_ofNat_le_iff {b : Nat} (hb : 2 ≤ b) (w n : Nat) :
    (ofNat b n).length ≤ w ↔ n < b ^ w := by
  rw [ofNat_eq_digits hb, List.length_reverse, Nat.digits_length_le_iff (by omega)]

theorem littleFixed_lt {b : Nat} (hb : 0 < b) (w n : Nat) : ∀ d ∈ littleFixed b w n, d < b := by
  induction w generalizing n with
  | zero => simp [littleFixed]
  | succ w ih =>
    intro d hd
    rcases List.mem_cons.1 hd with rfl | hd
    · exact Nat.mod_lt n hb
    · exact ih _ d hd

theorem value_fixed (b w n : Nat) : value b (fixed b w n) = n % b ^ w := by
  induction w generalizing n with
  | zero => simp [fixed, littleFixed, value, Nat.mod_one]
  | succ w ih =>
    rw [fixed, littleFixed, List.reverse_cons, value_append_singleton]
    have h := ih (n / b)
    rw [fixed] at h
    rw [h, Nat.pow_succ', Nat.mod_mul, Nat.mul_comm, Nat.add_comm]

theorem fixed_lt {b : Nat} (hb : 0 < b) (w n : Nat) : ∀ d ∈ fixed b w n, d < b := by
  intro d hd
  exact littleFixed_lt hb w n d (List.mem_reverse.1 hd)

end Digits

namespace Bytes

theorem toNat_lt_256 (b : Bytes) : ∀ d ∈ b.map UInt8.toNat, d < 256 := by
  intro d hd
  obtain ⟨x, _, rfl⟩ := List.mem_map.1 hd
  exact x.toNat_lt

theorem map_toNat_map_ofNat {ds : List Nat} (h : ∀ d ∈ ds, d < 256) :
    (ds.map UInt8.ofNat).map UInt8.toNat = ds := by
  rw [List.map_map]
  refine (List.map_congr_left fun d hd => ?_).trans (List.map_id ds)
  show (UInt8.ofNat d).toNat = d
  rw [UInt8.toNat_ofNat', Nat.mod_eq_of_lt (h d hd)]

theorem map_ofNat_map_toNat (b : Bytes) : (b.map UInt8.toNat).map UInt8.ofNat = b := by
  rw [List.map_map]
  refine (List.map_congr_left fun x _ => ?_).trans (List.map_id b)
  exact UInt8.ofNat_toNat

@[simp] theorem toNat_ofNat (n : Nat) : toNat (ofNat n) = n := by
  rw [toNat, ofNat, map_toNat_map_ofNat fun _ => Digits.lt_of_mem_ofNat (by omega)]
  exact Digits.value_ofNat (by omega) n

theorem ofNat_toNat {b : Bytes} (h : b.head? ≠ some 0) : ofNat (toNat b) = b := by
  rw [toNat, ofNat, Digits.ofNat_value (by omega) (toNat_lt_256 b), map_ofNat_map_toNat]
  cases b with
  | nil => simp
  | cons x r =>
    intro hx
    have hx' : x.toNat = 0 := by simpa using hx
    exact h (by simp [UInt8.toNat_inj.1 (hx'.trans UInt8.toNat_zero.symm)])

theorem toNat_cons (x : UInt8) (b : Bytes) :
    toNat (x :: b) = x.toNat * 256 ^ b.length + toNat b := by
  rw [toNat, List.map_cons, Digits.value_cons, List.length_map]
  rfl

theorem toNat_lt (b : Bytes) : toNat b < 256 ^ b.length := by
  have h := Digits.value_lt (by omega) (toNat_lt_256 b)
  rwa [List.length_map] at h

theorem length_ofNat_le_iff (w n : Nat) : (ofNat n).length ≤ w ↔ n < 256 ^ w := by
  rw [ofNat, List.length_map, Digits.length_ofNat_le_iff (by omega)]

theorem head?_ofNat_ne_zero (n : Nat) : (ofNat n).head? ≠ some 0 := by
  rw [ofNat, List.head?_map]
  intro h
  obtain ⟨d, hd, h0⟩ := Option.map_eq_some_iff.1 h
  have hlt := Digits.lt_of_mem_ofNat (by omega) (List.mem_of_head? hd)
  have hd0 : d = 0 := by
    have e := congrArg UInt8.toNat h0
    rwa [UInt8.toNat_ofNat', Nat.mod_eq_of_lt hlt, UInt8.toNat_zero] at e
  exact Digits.head?_ofNat_ne_zero (by omega) n (hd0 ▸ hd)

@[simp] theorem ofNat_eq_nil_iff (n : Nat) : ofNat n = [] ↔ n = 0 := by
  rw [← List.length_eq_zero_iff, ← Nat.le_zero, length_ofNat_le_iff, Nat.pow_zero, Nat.lt_one_iff]

@[simp] theorem toNat_fixed (w n : Nat) : toNat (fixed w n) = n % 256 ^ w := by
  rw [toNat, fixed, map_toNat_map_ofNat (Digits.fixed_lt (by omega) w n), Digits.value_fixed]

/-- byte strings of one length are told apart by their numbers -/
theorem toNat_inj_of_length {a b : Bytes} (hl : a.length = b.length) (h : toNat a = toNat b) :
    a = b := by
  rw [toNat, toNat, Digits.value_eq_ofDigits, Digits.value_eq_ofDigits] at h
  have hr : (a.map UInt8.toNat).reverse = (b.map UInt8.toNat).reverse := by
    refine Nat.ofDigits_inj_of_len_eq (by omega : 1 < 256) ?_ ?_ ?_ h
    · rw [List.length_reverse, List.length_reverse, List.length_map, List.length_map, hl]
    · exact fun d hd => toNat_lt_256 a d (List.mem_reverse.1 hd)
    · exact fun d hd => toNat_lt_256 b d (List.mem_reverse.1 hd)
  exact List.map_injective_iff.2 (fun _ _ => UInt8.toNat_inj.1) (List.reverse_injective hr)

theorem fixed_toNat {w : Nat} {b : Bytes} (h : b.length = w) : fixed w (toNat b) = b := by
  refine toNat_inj_of_length ((length_fixed w _).trans h.symm) ?_
  have hlt := toNat_lt b
  rw [h] at hlt
  rw [toNat_fixed, Nat.mod_eq_of_lt hlt]

theorem toNat_zeros_append (k : Nat) (b : Bytes) :
    toNat (List.replicate k 0 ++ b) = toNat b := by
  rw [toNat, List.map_append, List.map_replicate]
  exact Digits.value_zeros_append 256 k _

/-! ## pieces -/

theorem piecesFrom_flatten {w : Nat} (hw : 0 < w) {bs : List Bytes} (h : ∀ b ∈ bs, b.length = w)
    {fuel : Nat} (hf : bs.flatten.length ≤ fuel) : piecesFrom w fuel bs.flatten = bs := by
  induction bs generalizing fuel with
  | nil => cases fuel <;> rfl
  | cons b bs ih =>
    have hb : b.length = w := h b List.mem_cons_self
    rw [List.flatten_cons, List.length_append] at hf
    cases fuel with
    | zero => omega
    | succ fuel =>
      have hrest : piecesFrom w fuel bs.flatten = bs :=
        ih (fun x hx => h x (List.mem_cons_of_mem b hx)) (by omega)
      rw [List.flatten_cons, piecesFrom, List.take_left' hb, List.drop_left' hb, hrest]
      intro e
      have hl := congrArg List.length e
      rw [List.length_append, List.length_nil] at hl
      omega

/-- byte strings of one length are the pieces of what they make together -/
theorem pieces_flatten {w : Nat} (hw : 0 < w) {bs : List Bytes} (h : ∀ b ∈ bs, b.length = w) :
    pieces w bs.flatten = bs :=
  piecesFrom_flatten hw h (Nat.le_refl _)

theorem length_flatten_of_length_eq {w : Nat} {bs : List Bytes} (h : ∀ b ∈ bs, b.length = w) :
    bs.flatten.length = bs.length * w := by
  rw [List.length_flatten, List.map_congr_left h, List.map_const', List.sum_replicate_nat]

theorem length_of_mem_piecesFrom {w fuel : Nat} {b x : Bytes} (h : b.length % w = 0)
    (hx : x ∈ piecesFrom w fuel b) : x.length = w := by
  induction fuel generalizing b with
  | zero => cases hx
  | succ fuel ih =>
    cases b with
    | nil => cases hx
    | cons y r =>
      have hle : w ≤ (y :: r).length := Nat.le_of_dvd (Nat.succ_pos _) (Nat.dvd_of_mod_eq_zero h)
      rcases List.mem_cons.1 hx with rfl | hx
      · rw [List.length_take, Nat.min_eq_left hle]
      · refine ih ?_ hx
        rw [List.length_drop, ← Nat.mod_eq_sub_mod hle, h]

/-- byte strings in a row are cut apart again exactly when each of them is as wide as a piece -/
theorem pieces_flatten_iff {w : Nat} (hw : 0 < w) {bs : List Bytes} :
    bs.flatten.length % w = 0 ∧ pieces w bs.flatten = bs ↔ ∀ b ∈ bs, b.length = w := by
  constructor
  · rintro ⟨hm, hp⟩ b hb
    rw [← hp] at hb
    exact length_of_mem_piecesFrom hm hb
  · intro h
    refine ⟨?_, pieces_flatten hw h⟩
    rw [length_flatten_of_length_eq h, Nat.mul_mod_left]

end Bytes

end LedgerClient
