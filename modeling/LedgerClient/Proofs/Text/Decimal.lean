import LedgerClient.Proofs.Text.HexDigits
/-!
# Texts of decimal digits

Only the ten ASCII digits are decimal digits, and they denote their number with zeros in front or
without. No digits at all denote zero.

* `IsDecimalDigit c v`     `c` is the digit of value `v`;
* `DecimalText cs n`       `cs` are digits that denote `n`;
* `value_eq_some_iff`      which is what reading them one by one gives;
* `numeral?_ten_eq_some_iff`   a numeral has at least one of them;
* `withoutZeros_eq_toDigits`   without zeros in front they are the text of their number.
-/

namespace LedgerClient.Text

def decimalAlphabet : List Char := "0123456789".toList

/-- `c` is the decimal digit of value `v` -/
def IsDecimalDigit (c : Char) (v : Nat) : Prop := decimalAlphabet[v]? = some c

/-- `cs` are decimal digits that denote `n`, the most significant first -/
def DecimalText (cs : List Char) (n : Nat) : Prop :=
  ∃ vs, List.Forall₂ IsDecimalDigit cs vs ∧ Nat.ofDigits 10 vs.reverse = n

theorem nodup_decimalAlphabet : decimalAlphabet.Nodup := by decide

theorem IsDecimalDigit.ascii {c : Char} {v : Nat} (h : IsDecimalDigit c v) : c.toNat < 128 := by
  have hall : decimalAlphabet.all (fun d => decide (d.toNat < 128)) = true := rfl
  exact of_decide_eq_true (List.all_eq_true.1 hall c (List.mem_of_getElem? h))

theorem digit?_ten_eq_some_iff {c : Char} {v : Nat} :
    digit? 10 c = some v ↔ IsDecimalDigit c v := by
  by_cases hc : c.toNat < 128
  · have hall : ∀ n : Fin 128,
        digit? 10 (Char.ofNat n) = decimalAlphabet.idxOf? (Char.ofNat n) := by decide +kernel
    have hidx : digit? 10 c = decimalAlphabet.idxOf? c := by
      simpa only [Char.ofNat_toNat] using hall ⟨c.toNat, hc⟩
    rw [hidx]
    exact idxOf?_eq_some_iff_getElem? nodup_decimalAlphabet
  · rw [digit?_of_not_ascii hc]
    exact ⟨nofun, fun h => absurd h.ascii hc⟩

theorem decimalText_nil_iff {n : Nat} : DecimalText [] n ↔ n = 0 := by
  constructor
  · rintro ⟨vs, hvs, rfl⟩
    obtain rfl := List.forall₂_nil_left_iff.1 hvs
    rfl
  · rintro rfl
    exact ⟨[], .nil, rfl⟩

theorem value_eq_some_iff {cs : List Char} {n : Nat} :
    (cs.mapM (digit? 10)).map (Digits.value 10) = some n ↔ DecimalText cs n := by
  rw [Option.map_eq_some_iff]
  refine exists_congr fun vs => ?_
  rw [mapM_eq_some_iff, Digits.value_eq_ofDigits]
  simp only [digit?_ten_eq_some_iff]

/-- a numeral is one or more digits -/
theorem numeral?_ten_eq_some_iff {cs : List Char} {n : Nat} :
    numeral? 10 cs = some n ↔ cs ≠ [] ∧ DecimalText cs n := by
  cases cs with
  | nil => exact ⟨nofun, fun h => absurd rfl h.1⟩
  | cons c cs =>
    rw [and_iff_right (List.cons_ne_nil c cs), ← value_eq_some_iff]
    rfl

/-! ## zeros in front -/

/-- the digits without zeros in front, and one zero if nothing is left -/
def withoutZeros (cs : List Char) : List Char :=
  match cs.dropWhile (· = '0') with
  | [] => ['0']
  | ds => ds

variable {cs : List Char} {n : Nat}

/-- a character is the digit of one value, and a value has one digit -/
theorem IsDecimalDigit.eq_iff {c d : Char} {v w : Nat} (hc : IsDecimalDigit c v)
    (hd : IsDecimalDigit d w) : c = d ↔ v = w := by
  constructor
  · rintro rfl
    have hread := digit?_ten_eq_some_iff.2 hc
    rw [digit?_ten_eq_some_iff.2 hd] at hread
    exact (Option.some_inj.1 hread).symm
  · rintro rfl
    exact Option.some_inj.1 (hc.symm.trans hd)

theorem isDecimalDigit_zero : IsDecimalDigit '0' 0 := rfl

theorem IsDecimalDigit.lt {c : Char} {v : Nat} (h : IsDecimalDigit c v) : v < 10 := by
  obtain ⟨hlt, -⟩ := List.getElem?_eq_some_iff.1 h
  exact hlt

theorem decimalText_zero_cons (h : DecimalText ('0' :: cs) n) : DecimalText cs n := by
  obtain ⟨vs, hvs, rfl⟩ := h
  cases hvs with
  | @cons _ v _ vs hv hvs =>
    obtain rfl : 0 = v := (isDecimalDigit_zero.eq_iff hv).1 rfl
    refine ⟨vs, hvs, ?_⟩
    rw [List.reverse_cons, Nat.ofDigits_append, Nat.ofDigits_singleton, Nat.mul_zero, Nat.add_zero]

theorem DecimalText.dropWhile_zero (h : DecimalText cs n) :
    DecimalText (cs.dropWhile (· = '0')) n := by
  induction cs with
  | nil => exact h
  | cons c cs ih =>
    by_cases hc : c = '0'
    · subst hc
      exact ih (decimalText_zero_cons h)
    · rw [List.dropWhile_cons_of_neg (by simpa using hc)]
      exact h

/-- digits with no zero in front are told by their number -/
theorem DecimalText.exists_ofNat {c : Char} (h : DecimalText (c :: cs) n) (hc : c ≠ '0') :
    List.Forall₂ IsDecimalDigit (c :: cs) (Digits.ofNat 10 n) := by
  obtain ⟨vs, hvs, rfl⟩ := h
  have hlt : ∀ v ∈ vs, v < 10 := by
    intro v hv
    obtain ⟨d, hd⟩ := exists_forall₂_iff.1 ⟨c :: cs, hvs.flip⟩ v hv
    exact IsDecimalDigit.lt hd
  have hhead : vs.head? ≠ some 0 := by
    cases hvs with
    | cons hv _ =>
      intro hzero
      obtain rfl := Option.some_inj.1 hzero
      exact hc ((hv.eq_iff isDecimalDigit_zero).2 rfl)
  rw [← Digits.value_eq_ofDigits, Digits.ofNat_value (by omega) hlt hhead]
  exact hvs

/-- a value has one digit -/
theorem leftUnique_isDecimalDigit : Relator.LeftUnique IsDecimalDigit :=
  fun _ _ _ hc hd => (hc.eq_iff hd).2 rfl

theorem decimalText_toDigits (n : Nat) : DecimalText (Nat.toDigits 10 n) n :=
  (numeral?_ten_eq_some_iff.1 (numeral?_toDigits (by omega) (by omega) n)).2

/-- a number other than zero is written without a zero in front -/
theorem exists_toDigits_cons {n : Nat} (hn : n ≠ 0) :
    ∃ c cs, Nat.toDigits 10 n = c :: cs ∧ c ≠ '0' := by
  obtain ⟨c, cs, heq⟩ := List.exists_cons_of_ne_nil (Nat.toDigits_ne_nil (b := 10) (n := n))
  refine ⟨c, cs, heq, ?_⟩
  rintro rfl
  obtain ⟨vs, hvs, hvalue⟩ := mapM_digit?_toDigits (b := 10) (by omega) (by omega) n
  have hzero : vs.head? = some 0 := by
    rw [heq] at hvs
    cases mapM_eq_some_iff.1 hvs with
    | cons hv _ =>
      rw [List.head?_cons, ((digit?_ten_eq_some_iff.1 hv).eq_iff isDecimalDigit_zero).1 rfl]
  rw [head?_of_toDigits n hvs hzero] at hvalue
  exact hn hvalue.symm

/-- what is left is the text of the number -/
theorem withoutZeros_eq_toDigits (h : DecimalText cs n) : withoutZeros cs = Nat.toDigits 10 n := by
  have hdrop := h.dropWhile_zero
  unfold withoutZeros
  cases hds : cs.dropWhile (· = '0') with
  | nil =>
    rw [hds, decimalText_nil_iff] at hdrop
    subst hdrop
    rfl
  | cons d ds =>
    rw [hds] at hdrop
    have hd : d ≠ '0' := by
      have hne : cs.dropWhile (· = '0') ≠ [] := hds ▸ List.cons_ne_nil d ds
      simpa [hds] using List.head_dropWhile_not _ hne
    have hown := hdrop.exists_ofNat hd
    have hn : n ≠ 0 := by
      rintro rfl
      cases hown
    obtain ⟨c, rest, heq, hc⟩ := exists_toDigits_cons hn
    have htext := decimalText_toDigits n
    rw [heq] at htext ⊢
    exact List.left_unique_forall₂' leftUnique_isDecimalDigit hown (htext.exists_ofNat hc)

end LedgerClient.Text
