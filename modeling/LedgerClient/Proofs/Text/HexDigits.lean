import LedgerClient.Proofs.Check
import LedgerClient.Proofs.Digits
import LedgerClient.Proofs.Text.Hex
/-!
# Texts of hexadecimal digits

What the readers of numbers and of bytes take, said by the digits that a text is made of. A letter
may stand in either case, and nothing but a digit is one: no sign, no blank, and no `x`. So an
optional `0x` in front is never taken for digits, and a text has one reading at most.

* `IsHexDigit c v`             `c` is the digit of value `v`;
* `HexText cs vs`              `cs` is the digits `vs`, `0x` in front or not;
* `HexText.unique`             and of no others;
* `hexValue vs`                the number that the digits denote;
* `numeral?_eq_some_iff`       a number is read from one or more digits;
* `Hex.decode_eq_ok_iff`       bytes are read from two digits each;
* `Hex.Faulty`, `Hex.decode_eq_error_iff`   every other text, and what is wrong with it.
-/

namespace LedgerClient.Text

/-! ## digits -/

def hexAlphabet : List Char := "0123456789abcdef".toList

/-- `c` is the digit of value `v`, letters in either case -/
def IsHexDigit (c : Char) (v : Nat) : Prop := hexAlphabet[v]? = some c.toLower

/-- the place of a character in an alphabet is where it stands -/
theorem idxOf?_eq_some_iff_getElem? {alphabet : List Char} (h : alphabet.Nodup) {c : Char}
    {v : Nat} : alphabet.idxOf? c = some v ↔ alphabet[v]? = some c := by
  rw [List.idxOf?_eq_some_iff, List.getElem?_eq_some_iff]
  constructor
  · rintro ⟨hv, e, -⟩
    exact ⟨hv, e⟩
  · rintro ⟨hv, e⟩
    refine ⟨hv, e, fun j hj e' => ?_⟩
    have hjv : j = v := h.getElem_inj_iff.1 (e'.trans e.symm)
    omega

theorem nodup_hexAlphabet : hexAlphabet.Nodup := by decide +kernel

theorem IsHexDigit.lt {c : Char} {v : Nat} (h : IsHexDigit c v) : v < 16 :=
  (List.getElem?_eq_some_iff.1 h).1

/-- only ASCII characters are digits: nothing above has a digit as its lower case -/
theorem IsHexDigit.ascii {c : Char} {v : Nat} (h : IsHexDigit c v) : c.toNat < 128 := by
  by_contra hc
  have hup : ¬ (c.val ≥ 'A'.val ∧ c.val ≤ 'Z'.val) := by
    rintro ⟨-, hle⟩
    have hle' : c.toNat ≤ 90 := UInt32.le_iff_toNat_le.1 hle
    omega
  have hlow : c.toLower = c := dif_neg hup
  have hall : hexAlphabet.all (fun d => decide (d.toNat < 128)) = true := by decide +kernel
  have hget : hexAlphabet[v]? = some c := h.trans (congrArg some hlow)
  have hmem : c ∈ hexAlphabet := List.mem_of_getElem? hget
  exact hc (of_decide_eq_true (List.all_eq_true.1 hall c hmem))

theorem digit?_of_not_ascii {b : Nat} {c : Char} (h : ¬ c.toNat < 128) : digit? b c = none := by
  have hf : ∀ d : Char, d.toNat < 128 → ¬ c ≤ d := by
    intro d hd hle
    have hle' : c.toNat ≤ d.toNat := UInt32.le_iff_toNat_le.1 hle
    omega
  rw [digit?, if_neg fun h9 => hf '9' (by decide) h9.2, if_neg fun hz => hf 'f' (by decide) hz.2,
    if_neg fun hz => hf 'F' (by decide) hz.2]
  rfl

theorem digit?_eq_some_iff {c : Char} {v : Nat} : digit? 16 c = some v ↔ IsHexDigit c v := by
  by_cases hc : c.toNat < 128
  · have hall : ∀ n : Fin 128,
        digit? 16 (Char.ofNat n) = hexAlphabet.idxOf? (Char.ofNat n).toLower := by decide +kernel
    have hidx : digit? 16 c = hexAlphabet.idxOf? c.toLower := by
      simpa only [Char.ofNat_toNat] using hall ⟨c.toNat, hc⟩
    rw [hidx]
    exact idxOf?_eq_some_iff_getElem? nodup_hexAlphabet
  · rw [digit?_of_not_ascii hc]
    exact ⟨nofun, fun h => absurd h.ascii hc⟩

theorem mapM_digit?_eq_some_iff {cs : List Char} {vs : List Nat} :
    cs.mapM (digit? 16) = some vs ↔ List.Forall₂ IsHexDigit cs vs := by
  simp only [mapM_eq_some_iff, digit?_eq_some_iff]

theorem lt_of_forall₂_isHexDigit {cs : List Char} {vs : List Nat}
    (h : List.Forall₂ IsHexDigit cs vs) : ∀ v ∈ vs, v < 16 := by
  have hflip : List.Forall₂ (fun v c => IsHexDigit c v) vs cs := h.flip
  have hboth : List.Forall₂ (fun v c => v < 16 ∧ IsHexDigit c v) vs cs :=
    hflip.imp fun v c hd => ⟨IsHexDigit.lt hd, hd⟩
  exact ((List.forall₂_and_left vs cs).1 hboth).1

theorem ascii_of_forall₂_isHexDigit {cs : List Char} {vs : List Nat}
    (h : List.Forall₂ IsHexDigit cs vs) : ∀ c ∈ cs, c.toNat < 128 := by
  have hboth : List.Forall₂ (fun c v => c.toNat < 128 ∧ IsHexDigit c v) cs vs :=
    h.imp fun c v hd => ⟨IsHexDigit.ascii hd, hd⟩
  exact ((List.forall₂_and_left cs vs).1 hboth).1

/-! ## an optional lead -/

/-- `cs` is the digits `vs`, `0x` in front or not -/
def HexText (cs : List Char) (vs : List Nat) : Prop :=
  ∃ ds, (cs = ds ∨ cs = ['0', 'x'] ++ ds) ∧ List.Forall₂ IsHexDigit ds vs

theorem not_isHexDigit_x (v : Nat) : ¬ IsHexDigit 'x' v := by
  have hx : digit? 16 'x' = none := by decide
  rw [← digit?_eq_some_iff, hx]
  exact nofun

/-- dropping the lead loses no reading, as `x` is no digit -/
theorem hexText_iff {cs : List Char} {vs : List Nat} :
    HexText cs vs ↔ List.Forall₂ IsHexDigit (dropLead ['0', 'x'] cs) vs := by
  constructor
  · rintro ⟨ds, rfl | rfl, h⟩
    · rwa [dropLead_of_ne]
      rintro r rfl
      obtain ⟨_, us, -, hx, -⟩ := List.forall₂_cons_left_iff.1 h
      obtain ⟨v, _, hx, -, -⟩ := List.forall₂_cons_left_iff.1 hx
      exact not_isHexDigit_x v hx
    · rwa [dropLead_append]
  · intro h
    exact ⟨dropLead ['0', 'x'] cs, eq_dropLead_or ['0', 'x'] cs, h⟩

theorem HexText.unique {cs : List Char} {vs ws : List Nat} (h : HexText cs vs)
    (h' : HexText cs ws) : vs = ws := by
  have hv := mapM_digit?_eq_some_iff.2 (hexText_iff.1 h)
  have hw := mapM_digit?_eq_some_iff.2 (hexText_iff.1 h')
  exact Option.some.inj (hv.symm.trans hw)

/-! ## numbers -/

/-- the number that digits denote, the most significant first -/
def hexValue (vs : List Nat) : Nat := Nat.ofDigits 16 vs.reverse

theorem hexValue_eq_value (vs : List Nat) : hexValue vs = Digits.value 16 vs :=
  (Digits.value_eq_ofDigits 16 vs).symm

theorem numeral?_eq_some_iff {cs : List Char} {n : Nat} :
    numeral? 16 cs = some n ↔ ∃ vs, vs ≠ [] ∧ List.Forall₂ IsHexDigit cs vs ∧ hexValue vs = n := by
  cases cs with
  | nil =>
    refine ⟨nofun, ?_⟩
    rintro ⟨vs, hne, hvs, -⟩
    exact absurd (List.forall₂_nil_left_iff.1 hvs) hne
  | cons c cs =>
    show ((c :: cs).mapM (digit? 16)).map (Digits.value 16) = some n ↔ _
    rw [Option.map_eq_some_iff]
    constructor
    · rintro ⟨vs, hvs, e⟩
      have hd := mapM_digit?_eq_some_iff.1 hvs
      refine ⟨vs, ?_, hd, (hexValue_eq_value vs).trans e⟩
      rintro rfl
      cases hd
    · rintro ⟨vs, -, hd, e⟩
      exact ⟨vs, mapM_digit?_eq_some_iff.2 hd, (hexValue_eq_value vs).symm.trans e⟩

/-! ## bytes -/

/-- the two digits of every byte -/
def nibbles (b : Bytes) : List Nat := b.flatMap fun x => [x.toNat / 16, x.toNat % 16]

theorem nibbles_cons (x : UInt8) (b : Bytes) :
    nibbles (x :: b) = x.toNat / 16 :: x.toNat % 16 :: nibbles b := rfl

theorem length_nibbles (b : Bytes) : (nibbles b).length = 2 * b.length := by
  induction b with
  | nil => rfl
  | cons x b ih =>
    rw [nibbles_cons, List.length_cons, List.length_cons, ih, List.length_cons]
    omega

/-- an even number of digits is the two digits of as many bytes -/
theorem exists_nibbles : ∀ {vs : List Nat}, (∀ v ∈ vs, v < 16) → vs.length % 2 = 0 →
    ∃ b, nibbles b = vs
  | [], _, _ => ⟨[], rfl⟩
  | [_], _, h => nomatch h
  | hi :: lo :: vs, hlt, heven => by
    have hhi : hi < 16 := hlt hi List.mem_cons_self
    have hlo : lo < 16 := hlt lo (List.mem_cons_of_mem _ List.mem_cons_self)
    have hrest : vs.length % 2 = 0 := by
      rw [List.length_cons, List.length_cons] at heven
      omega
    obtain ⟨b, rfl⟩ := exists_nibbles
      (fun v hv => hlt v (List.mem_cons_of_mem _ (List.mem_cons_of_mem _ hv))) hrest
    have hx : (UInt8.ofNat (hi * 16 + lo)).toNat = hi * 16 + lo := by
      rw [UInt8.toNat_ofNat', Nat.mod_eq_of_lt (by omega)]
    refine ⟨UInt8.ofNat (hi * 16 + lo) :: b, ?_⟩
    rw [nibbles_cons, hx, show (hi * 16 + lo) / 16 = hi by omega,
      show (hi * 16 + lo) % 16 = lo by omega]

/-- the digits of bytes denote the number of the bytes -/
theorem hexValue_nibbles (b : Bytes) : hexValue (nibbles b) = Bytes.toNat b := by
  rw [hexValue_eq_value]
  induction b with
  | nil => rfl
  | cons x b ih =>
    have hpow : 16 ^ (2 * b.length) = 256 ^ b.length := Nat.pow_mul 16 2 b.length
    calc Digits.value 16 (nibbles (x :: b))
        = x.toNat / 16 * 16 ^ (2 * b.length + 1) +
            (x.toNat % 16 * 16 ^ (2 * b.length) + Digits.value 16 (nibbles b)) := by
          rw [nibbles_cons, Digits.value_cons, Digits.value_cons, List.length_cons, length_nibbles]
      _ = (x.toNat / 16 * 16 + x.toNat % 16) * 256 ^ b.length + Bytes.toNat b := by
          rw [ih, Nat.pow_succ', hpow, ← Nat.mul_assoc, ← Nat.add_assoc, Nat.add_mul]
      _ = Bytes.toNat (x :: b) := by rw [Nat.div_add_mod', Bytes.toNat_cons]

namespace Hex

/-- the digits of a text, as its bytes -/
theorem utf8_of_digits {s : String} {vs : List Nat} (h : List.Forall₂ IsHexDigit s.toList vs) :
    utf8 s = s.toList.map asciiByte := by
  rw [← utf8_ofList_ascii (ascii_of_forall₂_isHexDigit h), String.ofList_toList]

theorem nibble_of_isHexDigit {c : Char} {v : Nat} (h : IsHexDigit c v) (i : Nat) :
    nibble (asciiByte c) i = .ok v := by
  rw [nibble, ofNat_toNat_asciiByte h.ascii, digit?_eq_some_iff.2 h]

theorem decodePairs_of_digits {cs : List Char} {b : Bytes} (i : Nat)
    (h : List.Forall₂ IsHexDigit cs (nibbles b)) : decodePairs i (cs.map asciiByte) = .ok b := by
  induction b generalizing i cs with
  | nil =>
    obtain rfl := List.forall₂_nil_right_iff.1 h
    rfl
  | cons x b ih =>
    rw [nibbles_cons] at h
    obtain ⟨c, _, hc, htail, rfl⟩ := List.forall₂_cons_right_iff.1 h
    obtain ⟨d, cs, hd, hrest, rfl⟩ := List.forall₂_cons_right_iff.1 htail
    rw [List.map_cons, List.map_cons, decodePairs, nibble_of_isHexDigit hc,
      nibble_of_isHexDigit hd, ih (i + 2) hrest]
    show Except.ok (UInt8.ofNat (x.toNat / 16 * 16 + x.toNat % 16) :: b) = _
    rw [Nat.div_add_mod', UInt8.ofNat_toNat]

theorem decode_of_digits {s : String} {b : Bytes}
    (h : List.Forall₂ IsHexDigit s.toList (nibbles b)) : decode s = .ok b := by
  have hl : (utf8 s).length = 2 * b.length := by
    rw [utf8_of_digits h, List.length_map, h.length_eq, length_nibbles]
  show (if (utf8 s).length % 2 = 1 then _ else decodePairs 0 (utf8 s)) = _
  rw [if_neg (by omega), utf8_of_digits h, decodePairs_of_digits 0 h]

/-! ## texts of other characters -/

/-- the byte of a digit -/
def IsDigitByte (x : UInt8) : Prop := ∃ v, IsHexDigit (Char.ofNat x.toNat) v

/-- what is wrong with a text, and how it is told: an odd number of bytes before a wrong one, and
of the wrong bytes the first, as the character of its number -/
inductive Faulty (s : String) : Error → Prop
  | oddLength : (utf8 s).length % 2 = 1 → Faulty s .oddLength
  | invalidCharacter {pre post : Bytes} {x : UInt8} :
    (utf8 s).length % 2 = 0 → utf8 s = pre ++ x :: post → (∀ y ∈ pre, IsDigitByte y) →
    ¬ IsDigitByte x → Faulty s (.invalidCharacter (Char.ofNat x.toNat) pre.length)

theorem nibble_of_isDigitByte {x : UInt8} (h : IsDigitByte x) (i : Nat) :
    ∃ v, nibble x i = .ok v := by
  obtain ⟨v, hv⟩ := h
  exact ⟨v, by rw [nibble, digit?_eq_some_iff.2 hv]⟩

theorem nibble_of_not_isDigitByte {x : UInt8} (h : ¬ IsDigitByte x) (i : Nat) :
    nibble x i = .error (.invalidCharacter (Char.ofNat x.toNat) i) := by
  have hd : digit? 16 (Char.ofNat x.toNat) = none :=
    Option.eq_none_iff_forall_ne_some.2 fun v hv => h ⟨v, digit?_eq_some_iff.1 hv⟩
  rw [nibble, hd]

theorem decodePairs_of_not_isDigitByte {x : UInt8} (hx : ¬ IsDigitByte x) :
    ∀ {pre post : Bytes} (i : Nat), (∀ y ∈ pre, IsDigitByte y) →
      (pre ++ x :: post).length % 2 = 0 → decodePairs i (pre ++ x :: post) =
        .error (.invalidCharacter (Char.ofNat x.toNat) (i + pre.length))
  | [], [], _, _, h => nomatch h
  | [], y :: post, i, _, _ => by
    rw [List.nil_append, decodePairs, nibble_of_not_isDigitByte hx]
    rfl
  | [a], post, i, hpre, _ => by
    obtain ⟨v, hv⟩ := nibble_of_isDigitByte (hpre a List.mem_cons_self) i
    rw [List.singleton_append, decodePairs, hv, ok_bind, nibble_of_not_isDigitByte hx]
    rfl
  | a :: b :: pre, post, i, hpre, heven => by
    have hb : IsDigitByte b := hpre b (List.mem_cons_of_mem _ List.mem_cons_self)
    obtain ⟨v, hv⟩ := nibble_of_isDigitByte (hpre a List.mem_cons_self) i
    obtain ⟨w, hw⟩ := nibble_of_isDigitByte hb (i + 1)
    have hrest : (pre ++ x :: post).length % 2 = 0 := by
      rw [List.cons_append, List.cons_append, List.length_cons, List.length_cons] at heven
      omega
    have ih := decodePairs_of_not_isDigitByte hx (i + 2)
      (fun y hy => hpre y (List.mem_cons_of_mem _ (List.mem_cons_of_mem _ hy))) hrest
    rw [List.cons_append, List.cons_append, decodePairs, hv, ok_bind, hw, ok_bind, ih,
      List.length_cons, List.length_cons, Nat.add_assoc, Nat.add_comm 2]
    rfl

theorem decode_of_faulty {s : String} {e : Error} (h : Faulty s e) : decode s = .error e := by
  show (if (utf8 s).length % 2 = 1 then _ else decodePairs 0 (utf8 s)) = _
  cases h with
  | oddLength h => rw [if_pos h]
  | @invalidCharacter pre post x heven hs hpre hx =>
    rw [if_neg (by omega)]
    rw [hs] at heven ⊢
    rw [decodePairs_of_not_isDigitByte hx 0 hpre heven, Nat.zero_add]

/-- a text of nothing but digit bytes is a text of digits -/
theorem exists_digits {s : String} (h : ∀ x ∈ utf8 s, IsDigitByte x) :
    ∃ vs, List.Forall₂ IsHexDigit s.toList vs := by
  obtain ⟨vs, hvs⟩ := exists_forall₂_iff.2 h
  replace hvs : List.Forall₂ IsHexDigit ((utf8 s).map fun x => Char.ofNat x.toNat) vs :=
    List.forall₂_map_left_iff.2 hvs
  -- such bytes are ASCII, so they are the bytes of the text of their characters
  have hs := utf8_of_digits (s := String.ofList ((utf8 s).map fun x => Char.ofNat x.toNat))
    (by rwa [String.toList_ofList])
  rw [String.toList_ofList, List.map_map] at hs
  have hsame : utf8 (String.ofList ((utf8 s).map fun x => Char.ofNat x.toNat)) = utf8 s :=
    hs.trans ((List.map_congr_left fun x _ => asciiByte_ofNat_toNat x).trans (List.map_id _))
  rw [← utf8_injective hsame, String.toList_ofList]
  exact ⟨vs, hvs⟩

theorem digits_or_faulty (s : String) :
    (∃ b, List.Forall₂ IsHexDigit s.toList (nibbles b)) ∨ ∃ e, Faulty s e := by
  by_cases heven : (utf8 s).length % 2 = 0
  · by_cases h : ∀ x ∈ utf8 s, IsDigitByte x
    · obtain ⟨vs, hvs⟩ := exists_digits h
      have hl : vs.length % 2 = 0 := by
        rwa [utf8_of_digits hvs, List.length_map, hvs.length_eq] at heven
      obtain ⟨b, rfl⟩ := exists_nibbles (lt_of_forall₂_isHexDigit hvs) hl
      exact .inl ⟨b, hvs⟩
    · obtain ⟨pre, x, post, hs, hpre, hx⟩ := exists_first h
      exact .inr ⟨_, .invalidCharacter heven hs hpre hx⟩
  · exact .inr ⟨_, .oddLength (by omega)⟩

theorem decode_eq_ok_iff {s : String} {b : Bytes} :
    decode s = .ok b ↔ List.Forall₂ IsHexDigit s.toList (nibbles b) := by
  refine ⟨fun h => ?_, decode_of_digits⟩
  rcases digits_or_faulty s with ⟨b', hb⟩ | ⟨e, he⟩
  · obtain rfl : b' = b := Except.ok.inj ((decode_of_digits hb).symm.trans h)
    exact hb
  · cases (decode_of_faulty he).symm.trans h

theorem decode_eq_error_iff {s : String} {e : Error} : decode s = .error e ↔ Faulty s e := by
  refine ⟨fun h => ?_, decode_of_faulty⟩
  rcases digits_or_faulty s with ⟨b, hb⟩ | ⟨e', he⟩
  · cases (decode_of_digits hb).symm.trans h
  · obtain rfl : e' = e := Except.error.inj ((decode_of_faulty he).symm.trans h)
    exact he

end Hex

end LedgerClient.Text
