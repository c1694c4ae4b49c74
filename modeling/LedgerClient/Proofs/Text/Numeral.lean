import LedgerClient.Text.Numeral
import LedgerClient.Text.Quoted
/-!
# Numerals, read back

* `digit?_digitChar`       a digit is read back in every base up to sixteen;
* `numeral?_toDigits`      so is a number;
* `head?_of_toDigits`      which is written without zeros in front;
* `bind_bounded?_eq_some_iff`   a number that is read is kept if it is below a bound;
* `eq_dropLead_or`         a lead is there and is dropped, or is not there;
* `dropLead_toDigits`      a hexadecimal numeral does not start with `0x`.
-/

namespace LedgerClient.Text

theorem digit?_digitChar {b d : Nat} (hb : b ≤ 16) (hd : d < b) :
    digit? b (Nat.digitChar d) = some d := by
  have h : ∀ d : Fin 16, digit? 16 (Nat.digitChar d) = some d.val := by decide
  have h16 := h ⟨d, by omega⟩
  rw [digit?, Option.filter_eq_some_iff] at h16 ⊢
  exact ⟨h16.1, decide_eq_true hd⟩

/-- the digits of a number denote it -/
theorem mapM_digit?_toDigits {b : Nat} (hb : 1 < b) (hb' : b ≤ 16) (n : Nat) :
    ∃ ds, (Nat.toDigits b n).mapM (digit? b) = some ds ∧ Digits.value b ds = n := by
  induction n using Nat.strongRecOn with
  | ind n ih =>
    rw [Nat.toDigits_eq_if hb]
    split
    · rename_i hn
      refine ⟨[n], ?_, ?_⟩
      · rw [List.mapM_cons, digit?_digitChar hb' hn]
        rfl
      · rw [Digits.value, List.foldl_cons, List.foldl_nil, Nat.zero_mul, Nat.zero_add]
    · have hlt : n / b < n := Nat.div_lt_self (by omega) hb
      have hm : n % b < b := Nat.mod_lt _ (by omega)
      obtain ⟨ds, hds, hv⟩ := ih (n / b) hlt
      refine ⟨ds ++ [n % b], ?_, ?_⟩
      · rw [List.mapM_append, hds, List.mapM_cons, digit?_digitChar hb' hm]
        rfl
      · rw [Digits.value_append_singleton, hv, Nat.div_add_mod']

theorem numeral?_toDigits {b : Nat} (hb : 1 < b) (hb' : b ≤ 16) (n : Nat) :
    numeral? b (Nat.toDigits b n) = some n := by
  obtain ⟨ds, hds, hv⟩ := mapM_digit?_toDigits hb hb' n
  unfold numeral?
  split
  · rename_i h
    exact absurd h Nat.toDigits_ne_nil
  · rw [hds, Option.map_some, hv]

/-- a numeral of more than one digit does not start with zero -/
theorem head?_of_toDigits (n : Nat) {ds : List Nat}
    (h : (Nat.toDigits 10 n).mapM (digit? 10) = some ds) (hzero : ds.head? = some 0) :
    ds = [0] := by
  induction n using Nat.strongRecOn generalizing ds with
  | ind n ih =>
    rw [Nat.toDigits_eq_if (by omega)] at h
    split at h
    · rename_i hn
      rw [List.mapM_cons, digit?_digitChar (by omega) hn] at h
      obtain rfl : [n] = ds := Option.some.inj h
      rw [Option.some.inj hzero]
    · rename_i hn
      obtain ⟨front, hfront, hvalue⟩ :=
        mapM_digit?_toDigits (b := 10) (by omega) (by omega) (n / 10)
      rw [List.mapM_append, hfront, List.mapM_cons,
        digit?_digitChar (by omega) (Nat.mod_lt _ (by omega))] at h
      obtain rfl : front ++ [n % 10] = ds := Option.some.inj h
      cases front with
      | nil =>
        have hn0 : 0 = n / 10 := hvalue
        omega
      | cons d front =>
        have hd := ih (n / 10) (by omega) hfront hzero
        rw [hd] at hvalue
        have hn0 : 0 = n / 10 := hvalue
        omega

theorem bind_bounded?_eq_some_iff {x : Option Nat} {bound n : Nat} :
    x.bind (bounded? bound) = some n ↔ x = some n ∧ n < bound := by
  rw [Option.bind_eq_some_iff]
  unfold bounded?
  constructor
  · rintro ⟨m, hm, h⟩
    split at h
    · rename_i hlt
      obtain rfl := Option.some.inj h
      exact ⟨hm, hlt⟩
    · cases h
  · rintro ⟨hn, hlt⟩
    exact ⟨n, hn, if_pos hlt⟩

/-! ## leads -/

theorem dropLead?_append (p s : List Char) : dropLead? p (p ++ s) = some s := by
  have h : p.isPrefixOf (p ++ s) = true := List.isPrefixOf_iff_prefix.2 (List.prefix_append p s)
  rw [dropLead?, if_pos h, List.drop_left]

theorem dropLead_append (p s : List Char) : dropLead p (p ++ s) = s := by
  rw [dropLead, dropLead?_append, Option.getD_some]

theorem dropLead?_eq_some_iff {p s r : List Char} : dropLead? p s = some r ↔ s = p ++ r := by
  refine ⟨fun h => ?_, fun h => h ▸ dropLead?_append p r⟩
  unfold dropLead? at h
  split at h
  · rename_i hp
    obtain ⟨t, rfl⟩ := List.isPrefixOf_iff_prefix.1 hp
    rw [List.drop_left] at h
    rw [Option.some.inj h]
  · cases h

/-- a lead is dropped if it is there -/
theorem eq_dropLead_or (p s : List Char) : s = dropLead p s ∨ s = p ++ dropLead p s := by
  cases hlead : dropLead? p s with
  | none =>
    left
    rw [dropLead, hlead, Option.getD_none]
  | some r =>
    right
    rw [dropLead, hlead, Option.getD_some]
    exact dropLead?_eq_some_iff.1 hlead

/-- what does not start with the lead stays as it is -/
theorem dropLead_of_ne {p s : List Char} (h : ∀ r, s ≠ p ++ r) : dropLead p s = s := by
  rcases eq_dropLead_or p s with heq | heq
  · exact heq.symm
  · exact absurd heq (h _)

theorem dropLead_toDigits (n : Nat) :
    dropLead ['0', 'x'] (Nat.toDigits 16 n) = Nat.toDigits 16 n := by
  refine dropLead_of_ne fun r hr => ?_
  have hn : numeral? 16 (Nat.toDigits 16 n) = some n := numeral?_toDigits (by omega) (by omega) n
  have hx : digit? 16 'x' = none := by decide
  rw [hr] at hn
  simp [numeral?, List.mapM_cons, hx] at hn

end LedgerClient.Text
