import LedgerClient.Proofs.Digits
import LedgerClient.Proofs.Text.Ascii
import LedgerClient.Text.Base58
/-!
# Base 58, both ways

Byte strings and base 58 texts correspond one to one: a text that decodes is the text of its
bytes, so neither a leading zero nor a leading `1` is lost, and no byte string has two texts.

* `Base58.toDigits`              the digits of a byte string, with `ofDigits` as inverse;
* `Base58.decode_encode`         every byte string is read back;
* `Base58.decode_eq_ok_iff`      the texts that decode are the encoded ones;
* `Base58.exists_decode_iff`     and these are the texts of digits.
-/

namespace LedgerClient.Text

/-- a list is its leading zeros and a rest that starts with no zero -/
theorem exists_zeros_append {α : Type} [Zero α] [DecidableEq α] (l : List α) :
    ∃ k r, l = List.replicate k 0 ++ r ∧ r.head? ≠ some 0 := by
  induction l with
  | nil => exact ⟨0, [], rfl, by simp⟩
  | cons x l ih =>
    by_cases hx : x = 0
    · obtain ⟨k, r, e, hr⟩ := ih
      exact ⟨k + 1, r, by rw [hx, e]; rfl, hr⟩
    · exact ⟨0, x :: l, rfl, by simpa using hx⟩

theorem takeWhile_zeros_append {α : Type} [Zero α] [DecidableEq α] (k : Nat) {r : List α}
    (h : r.head? ≠ some 0) :
    (List.replicate k 0 ++ r).takeWhile (· = 0) = List.replicate k 0 := by
  have hr : r.takeWhile (fun x => decide (x = 0)) = [] := by
    cases r with
    | nil => rfl
    | cons x r =>
      have hx : ¬ x = 0 := by simpa using h
      simp [hx]
  rw [List.takeWhile_append_of_pos (by simp), hr, List.append_nil]

namespace Base58

theorem nodup_alphabet : alphabet.Nodup := by decide +kernel

theorem length_alphabet : alphabet.length = 58 := by decide +kernel

theorem digit_mem (v : Nat) : digit v ∈ alphabet := by
  rw [digit, List.getD_eq_getElem?_getD]
  cases hv : alphabet[v]? with
  | none => exact List.mem_cons_self
  | some d => exact List.mem_of_getElem? hv

theorem digit_eq_getElem {v : Nat} (h : v < alphabet.length) : digit v = alphabet[v] := by
  rw [digit, List.getD_eq_getElem?_getD, List.getElem?_eq_getElem h, Option.getD_some]

theorem digit?_digit {v : Nat} (h : v < 58) : digit? (digit v) = some v := by
  have hv : v < alphabet.length := length_alphabet ▸ h
  rw [digit_eq_getElem hv]
  refine List.findIdx?_eq_some_iff_getElem.2 ⟨hv, beq_self_eq_true _, fun j hj hb => ?_⟩
  have hjv : j = v := (nodup_alphabet.getElem_inj_iff).1 (beq_iff_eq.1 hb)
  omega

theorem digit_toNat_lt (v : Nat) : (digit v).toNat < 128 := by
  have h : alphabet.all (fun c => decide (c.toNat < 128)) = true := by decide +kernel
  exact of_decide_eq_true (List.all_eq_true.1 h _ (digit_mem v))

theorem digit_of_digit? {c : Char} {v : Nat} (h : digit? c = some v) : v < 58 ∧ digit v = c := by
  obtain ⟨hv, hc, _⟩ := List.findIdx?_eq_some_iff_getElem.1 h
  exact ⟨length_alphabet ▸ hv, (digit_eq_getElem hv).trans (beq_iff_eq.1 hc)⟩

def digitByte (v : Nat) : UInt8 := asciiByte (digit v)

theorem utf8_digits (vs : List Nat) :
    utf8 (String.ofList (vs.map digit)) = vs.map digitByte := by
  rw [utf8_ofList_ascii, List.map_map]
  · rfl
  · intro c hc
    obtain ⟨v, -, rfl⟩ := List.mem_map.1 hc
    exact digit_toNat_lt v

theorem readDigits_digitBytes (i : Nat) {vs : List Nat} (h : ∀ v ∈ vs, v < 58) :
    readDigits i (vs.map digitByte) = .ok vs := by
  induction vs generalizing i with
  | nil => rfl
  | cons v vs ih =>
    have hv : v < 58 := h v List.mem_cons_self
    have hd := digit_toNat_lt v
    have hb : ¬ 127 < digitByte v := by
      rw [digitByte, asciiByte, UInt8.lt_iff_toNat_lt, UInt8.toNat_ofNat',
        Nat.mod_eq_of_lt (by omega)]
      show ¬ 127 < (digit v).toNat
      omega
    rw [List.map_cons, readDigits, if_neg hb, digitByte, ofNat_toNat_asciiByte hd, digit?_digit hv,
      ih (i + 1) fun w hw => h w (List.mem_cons_of_mem v hw)]
    rfl

/-- bytes that read as digits are the bytes of those digits -/
theorem digitBytes_of_readDigits {i : Nat} {b : Bytes} {vs : List Nat}
    (h : readDigits i b = .ok vs) : (∀ v ∈ vs, v < 58) ∧ b = vs.map digitByte := by
  induction b generalizing i vs with
  | nil => cases h; simp
  | cons x r ih =>
    rw [readDigits] at h
    split at h
    · cases h
    · split at h
      · cases h
      · rename_i v hd
        cases hr : readDigits (i + 1) r with
        | error e => rw [hr] at h; cases h
        | ok ws =>
          rw [hr] at h
          cases h
          obtain ⟨hv, hx⟩ := digit_of_digit? hd
          obtain ⟨hws, rfl⟩ := ih hr
          refine ⟨fun w hw => ?_, ?_⟩
          · rcases List.mem_cons.1 hw with rfl | hw
            · exact hv
            · exact hws w hw
          · rw [List.map_cons, digitByte, hx, asciiByte_ofNat_toNat]

/-! ## digits and bytes -/

/-- one zero for each leading zero byte, then the digits of the number -/
def toDigits (b : Bytes) : List Nat :=
  (b.takeWhile (· = 0)).map (fun _ => 0) ++ Digits.ofNat 58 (Bytes.toNat b)

theorem encode_eq (b : Bytes) : encode b = String.ofList ((toDigits b).map digit) := by
  simp [encode, encodeChars, toDigits]

theorem mem_alphabet_of_mem_encode {b : Bytes} {c : Char} (h : c ∈ (encode b).toList) :
    c ∈ alphabet := by
  rw [encode_eq, String.toList_ofList] at h
  obtain ⟨v, -, rfl⟩ := List.mem_map.1 h
  exact digit_mem v

theorem toDigits_zeros_append (k : Nat) {b : Bytes} (h : b.head? ≠ some 0) :
    toDigits (List.replicate k 0 ++ b) =
      List.replicate k 0 ++ Digits.ofNat 58 (Bytes.toNat b) := by
  rw [toDigits, takeWhile_zeros_append k h, List.map_replicate, Bytes.toNat_zeros_append]

theorem ofDigits_zeros_append (k : Nat) {vs : List Nat} (h : vs.head? ≠ some 0) :
    ofDigits (List.replicate k 0 ++ vs) =
      List.replicate k 0 ++ Bytes.ofNat (Digits.value 58 vs) := by
  rw [ofDigits, takeWhile_zeros_append k h, List.map_replicate, Digits.value_zeros_append]

theorem toDigits_lt (b : Bytes) : ∀ v ∈ toDigits b, v < 58 := by
  intro v hv
  rcases List.mem_append.1 hv with hv | hv
  · obtain ⟨_, _, rfl⟩ := List.mem_map.1 hv
    omega
  · exact Digits.lt_of_mem_ofNat (by omega) hv

theorem ofDigits_toDigits (b : Bytes) : ofDigits (toDigits b) = b := by
  obtain ⟨k, r, rfl, hr⟩ := exists_zeros_append b
  rw [toDigits_zeros_append k hr,
    ofDigits_zeros_append k (Digits.head?_ofNat_ne_zero (by omega) _),
    Digits.value_ofNat (by omega), Bytes.ofNat_toNat hr]

theorem toDigits_ofDigits {vs : List Nat} (h : ∀ v ∈ vs, v < 58) : toDigits (ofDigits vs) = vs := by
  obtain ⟨k, r, rfl, hr⟩ := exists_zeros_append vs
  rw [ofDigits_zeros_append k hr, toDigits_zeros_append k (Bytes.head?_ofNat_ne_zero _),
    Bytes.toNat_ofNat,
    Digits.ofNat_value (by omega) (fun d hd => h d (List.mem_append_right _ hd)) hr]

@[simp] theorem decode_encode (b : Bytes) : decode (encode b) = .ok b := by
  have h := toDigits_lt b
  rw [decode, encode_eq, utf8_digits, readDigits_digitBytes 0 h]
  show Except.ok (ofDigits (toDigits b)) = _
  rw [ofDigits_toDigits]

/-- a text that decodes is the text of its bytes -/
theorem encode_of_decode {s : String} {b : Bytes} (h : decode s = .ok b) : encode b = s := by
  rw [decode] at h
  cases hr : readDigits 0 (utf8 s) with
  | error e => rw [hr] at h; cases h
  | ok vs =>
    rw [hr] at h
    cases h
    obtain ⟨hvs, hs⟩ := digitBytes_of_readDigits hr
    rw [encode_eq, toDigits_ofDigits hvs]
    exact utf8_injective ((utf8_digits vs).trans hs.symm)

theorem decode_eq_ok_iff {s : String} {b : Bytes} : decode s = .ok b ↔ encode b = s :=
  ⟨encode_of_decode, fun h => h ▸ decode_encode b⟩

/-- every character is a digit -/
def AllDigits (s : String) : Prop := ∀ c ∈ s.toList, c ∈ alphabet

theorem digit_idxOf {c : Char} (h : c ∈ alphabet) :
    alphabet.idxOf c < 58 ∧ digit (alphabet.idxOf c) = c := by
  have hlt : alphabet.idxOf c < alphabet.length := List.idxOf_lt_length_iff.2 h
  exact ⟨length_alphabet ▸ hlt, (digit_eq_getElem hlt).trans (List.getElem_idxOf hlt)⟩

theorem exists_decode_iff {s : String} : (∃ b, decode s = .ok b) ↔ AllDigits s := by
  constructor
  · rintro ⟨b, hb⟩
    rw [← encode_of_decode hb]
    exact fun c hc => mem_alphabet_of_mem_encode hc
  · intro h
    have hvs : ∀ v ∈ s.toList.map alphabet.idxOf, v < 58 := by
      intro v hv
      obtain ⟨c, hc, rfl⟩ := List.mem_map.1 hv
      exact (digit_idxOf (h c hc)).1
    have hs : (s.toList.map alphabet.idxOf).map digit = s.toList := by
      rw [List.map_map]
      exact (List.map_congr_left fun c hc => (digit_idxOf (h c hc)).2).trans (List.map_id _)
    refine ⟨ofDigits (s.toList.map alphabet.idxOf), decode_eq_ok_iff.2 ?_⟩
    rw [encode_eq, toDigits_ofDigits hvs, hs, String.ofList_toList]

theorem encode_injective {a b : Bytes} (h : encode a = encode b) : a = b := by
  have e := decode_encode a
  rw [h, decode_encode] at e
  exact (Except.ok.inj e).symm

theorem encode_ne_nil {b : Bytes} (h : b ≠ []) : (encode b).toList ≠ [] := by
  intro hnil
  have hempty : encode b = encode [] := String.toList_injective hnil
  exact h (encode_injective hempty)

end Base58

end LedgerClient.Text
