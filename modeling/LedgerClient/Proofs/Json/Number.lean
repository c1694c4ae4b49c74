import LedgerClient.Proofs.Json.Grammar
/-!
# Numbers, read as the grammar has them

A number ends where the next character cannot belong to it. So its reader takes the longest number
at the front of a text, and a number of the grammar is read when an end follows it.

* `numeral?_eq`             the reader of numbers, part by part;
* `exists_isNumeral`        what it reads is a number of the grammar;
* `Ends r`, `numeral?_append`   a number in front of an end is read;
* `isNumeral_whole_iff`     the numbers that are whole: digits alone, within 64 bits.
-/

namespace LedgerClient.Document

/-! ## digits -/

theorem isDigit_iff {c : Char} {d : Nat} : IsDigit (some c) d ↔ Text.digit? 10 c = some d := by
  rw [Text.digit?_ten_eq_some_iff]
  constructor
  · rintro ⟨x, hx, h⟩
    rwa [Option.some.inj hx]
  · intro h
    exact ⟨c, rfl, h⟩

theorem IsDigits.begins {t : Source} {ds : List Nat} (h : IsDigits t ds) :
    ∃ x r d, t = some x :: r ∧ Text.digit? 10 x = some d := by
  obtain ⟨hdigits, hne⟩ := h
  cases hdigits with
  | nil => exact absurd rfl hne
  | cons hd _ =>
    obtain ⟨x, rfl, hx⟩ := hd
    exact ⟨x, _, _, rfl, Text.digit?_ten_eq_some_iff.2 hx⟩

theorem exists_digits (r : Source) :
    ∃ t, List.Forall₂ IsDigit t (digits r).1 ∧ r = t ++ (digits r).2 := by
  induction r with
  | nil => exact ⟨[], .nil, rfl⟩
  | cons c r ih =>
    cases c with
    | none => exact ⟨[], .nil, rfl⟩
    | some c =>
      rw [digits]
      split
      · rename_i d hd
        obtain ⟨t, ht, hr⟩ := ih
        refine ⟨some c :: t, .cons (isDigit_iff.2 hd) ht, ?_⟩
        rw [List.cons_append, ← hr]
      · exact ⟨[], .nil, rfl⟩

/-- nothing follows, or one of these characters does -/
def StartsIn (cs : List Char) (r : Source) : Prop := ∀ c u, r = c :: u → ∃ x ∈ cs, c = some x

/-- what may stand behind a value: a blank, a comma or the end of a container -/
def ends : List Char := [' ', '\n', '\t', '\r', ',', ']', '\x7d']

abbrev Ends (r : Source) : Prop := StartsIn ends r

theorem startsIn_nil (cs : List Char) : StartsIn cs [] := nofun

theorem startsIn_cons {cs : List Char} {x : Char} (hx : x ∈ cs) (r : Source) :
    StartsIn cs (some x :: r) := by
  intro c u h
  cases h
  exact ⟨x, hx, rfl⟩

theorem StartsIn.mem {cs : List Char} {x : Char} {r : Source} (h : StartsIn cs (some x :: r)) :
    x ∈ cs := by
  obtain ⟨y, hy, heq⟩ := h _ _ rfl
  rwa [Option.some.inj heq]

theorem StartsIn.mono {cs cs' : List Char} {r : Source} (h : StartsIn cs r) (hcs : cs ⊆ cs') :
    StartsIn cs' r := by
  intro c u hr
  obtain ⟨x, hx, hc⟩ := h c u hr
  exact ⟨x, hcs hx, hc⟩

/-- what may stand behind a number's whole digits -/
def numberMarks : List Char := '.' :: 'e' :: 'E' :: ends

theorem digit?_of_mem_numberMarks {x : Char} (h : x ∈ numberMarks) : Text.digit? 10 x = none := by
  have hall : numberMarks.all (fun x => (Text.digit? 10 x).isNone) = true := by decide
  exact Option.isNone_iff_eq_none.1 (List.all_eq_true.1 hall x h)

theorem digits_of_startsIn {r : Source} (h : StartsIn numberMarks r) : digits r = ([], r) := by
  cases r with
  | nil => rfl
  | cons c r =>
    obtain ⟨x, hx, rfl⟩ := h c r rfl
    rw [digits, digit?_of_mem_numberMarks hx]

theorem digits_append {t r : Source} {ds : List Nat} (ht : List.Forall₂ IsDigit t ds)
    (hr : StartsIn numberMarks r) : digits (t ++ r) = (ds, r) := by
  induction ht with
  | nil => exact digits_of_startsIn hr
  | @cons c d t ds hd _ ih =>
    obtain ⟨x, rfl, hx⟩ := hd
    rw [List.cons_append, digits, Text.digit?_ten_eq_some_iff.2 hx, ih]

/-! ## the parts of a number -/

/-- the digits behind a decimal point, if there is one -/
def fraction? : Source → Option (Option (List Nat) × Source)
  | some '.' :: r => if (digits r).1 = [] then none else some (some (digits r).1, (digits r).2)
  | r => some (none, r)

/-- whether an exponent is negative, and what follows its sign -/
def signOf : Source → Bool × Source
  | some '+' :: r => (false, r)
  | some '-' :: r => (true, r)
  | r => (false, r)

def signed? (r : Source) : Option (Option (Bool × List Nat) × Source) :=
  if (digits (signOf r).2).1 = [] then none
  else some (some ((signOf r).1, (digits (signOf r).2).1), (digits (signOf r).2).2)

def exponentPart? : Source → Option (Option (Bool × List Nat) × Source)
  | some 'e' :: r => signed? r
  | some 'E' :: r => signed? r
  | r => some (none, r)

/-- the reader of numbers, with its parts one after the other -/
theorem numeral?_eq (neg : Bool) (r : Source) : numeral? neg r =
    if (digits r).1 = [] ∨ ((digits r).1.head? = some 0 ∧ 1 < (digits r).1.length) then none
    else (fraction? (digits r).2).bind fun f => (exponentPart? f.2).bind fun e =>
      some (.number (numberOf neg (digits r).1 f.1 e.1), e.2) := by
  unfold numeral?
  generalize digits r = p
  obtain ⟨whole, r₁⟩ := p
  have hexponent : ∀ fraction r₂, (match r₂ with
      | some 'e' :: r => (signed? r).bind fun e =>
          some (Document.number (numberOf neg whole fraction e.1), e.2)
      | some 'E' :: r => (signed? r).bind fun e =>
          some (Document.number (numberOf neg whole fraction e.1), e.2)
      | r => some (Document.number (numberOf neg whole fraction none), r)) =
      (exponentPart? r₂).bind fun e =>
        some (Document.number (numberOf neg whole fraction e.1), e.2) := by
    intro fraction r₂
    unfold exponentPart?
    split <;> rfl
  dsimp only
  split
  · rfl
  · split
    · rename_i r
      have hpoint : fraction? (some '.' :: r) = if (digits r).1 = [] then none
          else some (some (digits r).1, (digits r).2) := rfl
      rw [hpoint]
      by_cases hnone : (digits r).1 = []
      · rw [if_pos hnone, if_pos hnone]
        rfl
      · rw [if_neg hnone, if_neg hnone]
        exact hexponent (some (digits r).1) (digits r).2
    · rename_i hpoint
      have hother : fraction? r₁ = some (none, r₁) := by
        unfold fraction?
        split
        · exact absurd rfl (hpoint _)
        · rfl
      rw [hother]
      exact hexponent none r₁

theorem exists_isFraction {r r' : Source} {f : Option (List Nat)}
    (h : fraction? r = some (f, r')) : ∃ t, IsFraction t f ∧ r = t ++ r' := by
  unfold fraction? at h
  split at h
  · rename_i r
    split at h
    · cases h
    · rename_i hne
      cases h
      obtain ⟨t, ht, hr⟩ := exists_digits r
      refine ⟨some '.' :: t, .given ⟨ht, hne⟩, ?_⟩
      rw [List.cons_append, ← hr]
  · cases h
    exact ⟨[], .absent, rfl⟩

theorem exists_isSign (r : Source) : ∃ t, IsSign t (signOf r).1 ∧ r = t ++ (signOf r).2 := by
  unfold signOf
  split
  · exact ⟨_, .plus, rfl⟩
  · exact ⟨_, .minus, rfl⟩
  · exact ⟨_, .absent, rfl⟩

theorem exists_isExponent_signed {e : Char} (he : e = 'e' ∨ e = 'E') {r r' : Source}
    {x : Option (Bool × List Nat)} (h : signed? r = some (x, r')) :
    ∃ t, IsExponent t x ∧ some e :: r = t ++ r' := by
  unfold signed? at h
  split at h
  · cases h
  · rename_i hne
    cases h
    obtain ⟨s, hs, hr⟩ := exists_isSign r
    obtain ⟨t, ht, hrest⟩ := exists_digits (signOf r).2
    refine ⟨some e :: (s ++ t), .given he hs ⟨ht, hne⟩, ?_⟩
    rw [List.cons_append, List.append_assoc, ← hrest, ← hr]

theorem exists_isExponent {r r' : Source} {x : Option (Bool × List Nat)}
    (h : exponentPart? r = some (x, r')) : ∃ t, IsExponent t x ∧ r = t ++ r' := by
  unfold exponentPart? at h
  split at h
  · exact exists_isExponent_signed (.inl rfl) h
  · exact exists_isExponent_signed (.inr rfl) h
  · cases h
    exact ⟨[], .absent, rfl⟩

/-- digits with no zero in front of others are a whole part -/
theorem isWhole_iff {t : Source} {ds : List Nat} : IsWhole t ds ↔
    List.Forall₂ IsDigit t ds ∧ ¬ (ds = [] ∨ (ds.head? = some 0 ∧ 1 < ds.length)) := by
  constructor
  · rintro ⟨⟨ht, hne⟩, hlead⟩
    refine ⟨ht, not_or.2 ⟨hne, fun ⟨hzero, hlong⟩ => ?_⟩⟩
    rw [hlead hzero] at hlong
    exact absurd hlong (by decide)
  · rintro ⟨ht, h⟩
    obtain ⟨hne, hlead⟩ := not_or.1 h
    refine ⟨⟨ht, hne⟩, fun hzero => ?_⟩
    cases ds with
    | nil => exact absurd rfl hne
    | cons d ds =>
      obtain rfl : d = 0 := Option.some.inj hzero
      cases ds with
      | nil => rfl
      | cons d' ds => exact absurd ⟨rfl, by simp⟩ hlead

theorem exists_isNumeral {neg : Bool} {r r' : Source} {d : Document}
    (h : numeral? neg r = some (d, r')) :
    ∃ t n, IsNumeral neg t n ∧ d = .number n ∧ r = t ++ r' := by
  rw [numeral?_eq] at h
  split at h
  · cases h
  · rename_i hwhole
    obtain ⟨⟨f, r₁⟩, hfraction, h⟩ := Option.bind_eq_some_iff.1 h
    obtain ⟨⟨e, r₂⟩, hexponent, h⟩ := Option.bind_eq_some_iff.1 h
    cases h
    obtain ⟨w, hw, hr⟩ := exists_digits r
    obtain ⟨tf, hf, hr₁⟩ := exists_isFraction hfraction
    obtain ⟨te, he, hr₂⟩ := exists_isExponent hexponent
    refine ⟨w ++ (tf ++ te), _, .parts (isWhole_iff.2 ⟨hw, hwhole⟩) hf he, rfl, ?_⟩
    dsimp only at hr₂
    rw [List.append_assoc, List.append_assoc, ← hr₂, ← hr₁, ← hr]

/-! ## a number in front of an end -/

theorem fraction?_append {t r : Source} {f : Option (List Nat)} (ht : IsFraction t f)
    (hr : StartsIn ('e' :: 'E' :: ends) r) : fraction? (t ++ r) = some (f, r) := by
  cases ht with
  | absent =>
    rw [List.nil_append]
    unfold fraction?
    split
    · exact absurd hr.mem (by decide)
    · rfl
  | @given t ds ht =>
    have hdigits : digits (t ++ r) = (ds, r) :=
      digits_append ht.digits (hr.mono (List.subset_cons_self _ _))
    show (if (digits (t ++ r)).1 = [] then none
      else some (some (digits (t ++ r)).1, (digits (t ++ r)).2)) = _
    rw [hdigits, if_neg ht.ne_nil]

theorem signOf_append {s t : Source} {down : Bool} {ds : List Nat} (hs : IsSign s down)
    (ht : IsDigits t ds) (r : Source) : signOf (s ++ (t ++ r)) = (down, t ++ r) := by
  cases hs with
  | absent =>
    -- a digit is no sign
    obtain ⟨x, u, d, rfl, hdigit⟩ := ht.begins
    rw [List.nil_append, List.cons_append]
    unfold signOf
    split
    · rename_i heq
      cases heq
      cases hdigit
    · rename_i heq
      cases heq
      cases hdigit
    · rfl
  | plus => rfl
  | minus => rfl

theorem exponentPart?_append {t r : Source} {x : Option (Bool × List Nat)} (ht : IsExponent t x)
    (hr : Ends r) : exponentPart? (t ++ r) = some (x, r) := by
  cases ht with
  | absent =>
    rw [List.nil_append]
    unfold exponentPart?
    split
    · exact absurd hr.mem (by decide)
    · exact absurd hr.mem (by decide)
    · rfl
  | @given e s t down ds he hs ht =>
    have hdigits : digits (t ++ r) = (ds, r) :=
      digits_append ht.digits (hr.mono fun _ h => by simp [numberMarks, h])
    have hsigned : signed? (s ++ (t ++ r)) = some (some (down, ds), r) := by
      unfold signed?
      rw [signOf_append hs ht, hdigits, if_neg ht.ne_nil]
    rw [List.cons_append, List.append_assoc, ← hsigned]
    rcases he with rfl | rfl
    · rfl
    · rfl

theorem startsIn_exponent {t r : Source} {x : Option (Bool × List Nat)} (ht : IsExponent t x)
    (hr : Ends r) : StartsIn ('e' :: 'E' :: ends) (t ++ r) := by
  cases ht with
  | absent => exact hr.mono fun _ h => by simp [h]
  | given he _ _ =>
    rw [List.cons_append]
    exact startsIn_cons (by rcases he with rfl | rfl <;> simp) _

theorem startsIn_fraction {t r : Source} {f : Option (List Nat)} (ht : IsFraction t f)
    (hr : StartsIn ('e' :: 'E' :: ends) r) : StartsIn numberMarks (t ++ r) := by
  cases ht with
  | absent => exact hr.mono (List.subset_cons_self _ _)
  | given _ => exact startsIn_cons (List.mem_cons_self) _

/-- a number is read when an end follows it -/
theorem numeral?_append {neg : Bool} {t r : Source} {n : Option JsonNumber}
    (ht : IsNumeral neg t n) (hr : Ends r) : numeral? neg (t ++ r) = some (.number n, r) := by
  cases ht with
  | @parts w f e whole fraction exponent hw hf he =>
    obtain ⟨hdigits, hwhole⟩ := isWhole_iff.1 hw
    have hexponent := startsIn_exponent he hr
    have hread : digits (w ++ (f ++ (e ++ r))) = (whole, f ++ (e ++ r)) :=
      digits_append hdigits (startsIn_fraction hf hexponent)
    rw [List.append_assoc, List.append_assoc, numeral?_eq, hread, if_neg hwhole,
      fraction?_append hf hexponent, Option.bind_some, exponentPart?_append he hr]
    rfl

/-! ## whole numbers -/

theorem le_foldl_value (n : Nat) (ds : List Nat) :
    n ≤ ds.foldl (fun n d => n * 10 + d) n := by
  induction ds generalizing n with
  | nil => exact Nat.le_refl n
  | cons d ds ih =>
    have hnext := ih (n * 10 + d)
    rw [List.foldl_cons]
    omega

/-- no digit is dropped exactly when the number they denote has 64 bits -/
theorem accumulate_eq_iff {n m : Nat} (hn : n < 2 ^ 64) (ds : List Nat) :
    accumulate n ds = (m, []) ↔ ds.foldl (fun n d => n * 10 + d) n = m ∧ m < 2 ^ 64 := by
  induction ds generalizing n with
  | nil =>
    constructor
    · intro h
      cases h
      exact ⟨rfl, hn⟩
    · rintro ⟨rfl, -⟩
      rfl
  | cons d ds ih =>
    rw [accumulate, List.foldl_cons]
    by_cases hd : n * 10 + d < Nat.pow 2 64
    · rw [if_pos hd]
      exact ih hd
    · have hle := le_foldl_value (n * 10 + d) ds
      have hlarge : 2 ^ 64 ≤ n * 10 + d := Nat.le_of_not_lt hd
      rw [if_neg hd]
      constructor
      · intro h
        cases h
      · rintro ⟨rfl, hlt⟩
        omega

/-- what a sign and digits denote as a whole number of 64 bits; there is no negative zero -/
def WholeValue (neg : Bool) (ds : List Nat) (n : Int) : Prop :=
  if neg then n = -(Digits.value 10 ds : Int) ∧ 0 < Digits.value 10 ds ∧ Digits.value 10 ds ≤ 2 ^ 63
  else n = Digits.value 10 ds ∧ Digits.value 10 ds < 2 ^ 64

theorem map_double_ne {x : Option UInt64} {n : Int} :
    x.map JsonNumber.double ≠ some (.whole n) := by
  cases x with
  | none => exact nofun
  | some bits => exact nofun

/-- digits that are all taken are a whole number if their sign and size allow it -/
theorem wholeOf_eq_whole_iff {neg : Bool} {m : Nat} {n : Int} :
    (if !neg then some (JsonNumber.whole m)
      else if m = 0 ∨ Nat.pow 2 63 < m then some (.double (Double.ofNegated m))
      else some (.whole (-(m : Int)))) = some (.whole n) ↔
      if neg then n = -(m : Int) ∧ 0 < m ∧ m ≤ 2 ^ 63 else n = m := by
  have hpow : Nat.pow 2 63 = 2 ^ 63 := rfl
  cases neg with
  | false =>
    simp only [Bool.not_false, if_true, Option.some_inj, JsonNumber.whole.injEq,
      Bool.false_eq_true, if_false]
    exact eq_comm
  | true =>
    simp only [Bool.not_true, Bool.false_eq_true, if_false, if_true]
    by_cases hm : m = 0 ∨ Nat.pow 2 63 < m
    · rw [if_pos hm]
      constructor
      · exact nofun
      · rintro ⟨-, hpos, hle⟩
        omega
    · rw [if_neg hm, Option.some_inj, JsonNumber.whole.injEq]
      omega

theorem numberOf_eq_whole_iff {neg : Bool} {whole : List Nat} {fraction : Option (List Nat)}
    {exponent : Option (Bool × List Nat)} {n : Int} :
    numberOf neg whole fraction exponent = some (.whole n) ↔
      fraction = none ∧ exponent = none ∧ WholeValue neg whole n := by
  unfold numberOf WholeValue
  cases hread : accumulate 0 whole with
  | mk m dropped =>
    dsimp only
    split
    · obtain ⟨hvalue, hlt⟩ : Digits.value 10 whole = m ∧ m < 2 ^ 64 :=
        (accumulate_eq_iff (by omega) whole).1 hread
      rw [wholeOf_eq_whole_iff, hvalue]
      cases neg with
      | false => exact ⟨fun h => ⟨rfl, rfl, h, hlt⟩, fun h => h.2.2.1⟩
      | true => exact ⟨fun h => ⟨rfl, rfl, h⟩, fun h => h.2.2⟩
    -- a fraction, an exponent or a dropped digit makes it a binary64 number, or too large for one
    · rename_i hparts
      constructor
      · intro h
        split at h
        · exact absurd h map_double_ne
        · split at h
          · exact absurd h map_double_ne
          · split at h
            · cases h
            · exact absurd h map_double_ne
      · rintro ⟨rfl, rfl, hvalue⟩
        have hlt : Digits.value 10 whole < 2 ^ 64 := by
          cases neg with
          | false => exact hvalue.2
          | true => exact Nat.lt_of_le_of_lt hvalue.2.2 (by omega)
        have hall : accumulate 0 whole = (Digits.value 10 whole, []) :=
          (accumulate_eq_iff (by omega) whole).2 ⟨rfl, hlt⟩
        rw [hread] at hall
        cases hall
        exact absurd rfl (hparts rfl rfl)

/-- the numbers that are whole are digits alone, within 64 bits -/
theorem isNumeral_whole_iff {neg : Bool} {t : Source} {n : Int} :
    IsNumeral neg t (some (.whole n)) ↔ ∃ ds, IsWhole t ds ∧ WholeValue neg ds n := by
  constructor
  · intro h
    generalize hnumber : some (JsonNumber.whole n) = x at h
    cases h with
    | parts hw hf he =>
      obtain ⟨rfl, rfl, hvalue⟩ := numberOf_eq_whole_iff.1 hnumber.symm
      cases hf
      cases he
      rw [List.append_nil, List.append_nil]
      exact ⟨_, hw, hvalue⟩
  · rintro ⟨ds, hw, hvalue⟩
    have hparts : IsNumeral neg (t ++ ([] ++ [])) (numberOf neg ds none none) :=
      .parts hw .absent .absent
    rwa [List.append_nil, List.append_nil, numberOf_eq_whole_iff.2 ⟨rfl, rfl, hvalue⟩] at hparts

end LedgerClient.Document
