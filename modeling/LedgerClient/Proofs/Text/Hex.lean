import LedgerClient.Proofs.Text.Ascii
import LedgerClient.Proofs.Text.Numeral
import LedgerClient.Text.Hex
/-!
# Hexadecimal bytes, read back

* `Hex.decode_encode`     every byte string is read back from its digits;
* `Hex.digit?_of_mem_encode`   the text holds nothing but digits.
-/

namespace LedgerClient.Text.Hex

theorem digit_toNat_lt (v : Nat) : (digit v).toNat < 128 := by
  have h : ∀ i : Fin 16, (digit i).toNat < 128 := by decide
  by_cases hv : v < 16
  · exact h ⟨v, hv⟩
  · rw [digit, Nat.digitChar_eq_star.2 (by omega)]
    decide

theorem nibble_digit {v : Nat} (hv : v < 16) (i : Nat) :
    nibble (asciiByte (digit v)) i = .ok v := by
  have hd : digit? 16 (digit v) = some v := digit?_digitChar (by omega) hv
  rw [nibble, ofNat_toNat_asciiByte (digit_toNat_lt v), hd]

theorem utf8_encode (b : Bytes) : utf8 (encode b) = (encodeChars b).map asciiByte := by
  refine utf8_ofList_ascii fun c hc => ?_
  obtain ⟨x, -, hx⟩ := List.mem_flatMap.1 hc
  simp only [List.mem_cons, List.not_mem_nil, or_false] at hx
  rcases hx with rfl | rfl <;> exact digit_toNat_lt _

theorem length_encodeChars (b : Bytes) : (encodeChars b).length = 2 * b.length := by
  induction b with
  | nil => rfl
  | cons x b ih =>
    show (encodeChars b).length + 2 = _
    rw [ih, List.length_cons]
    omega

theorem decodePairs_encodeChars (i : Nat) (b : Bytes) :
    decodePairs i ((encodeChars b).map asciiByte) = .ok b := by
  induction b generalizing i with
  | nil => rfl
  | cons x b ih =>
    have hx : x.toNat < 256 := x.toNat_lt
    have hx' : UInt8.ofNat (x.toNat / 16 * 16 + x.toNat % 16) = x := by
      rw [Nat.div_add_mod', UInt8.ofNat_toNat]
    show decodePairs i (asciiByte (digit (x.toNat / 16)) :: asciiByte (digit (x.toNat % 16)) ::
      (encodeChars b).map asciiByte) = _
    rw [decodePairs, nibble_digit (by omega), nibble_digit (by omega), ih]
    show Except.ok (UInt8.ofNat (x.toNat / 16 * 16 + x.toNat % 16) :: b) = _
    rw [hx']

@[simp] theorem decode_encode (b : Bytes) : decode (encode b) = .ok b := by
  have hl : ¬ (utf8 (encode b)).length % 2 = 1 := by
    rw [utf8_encode, List.length_map, length_encodeChars]
    omega
  show (if _ then _ else _) = _
  rw [if_neg hl, utf8_encode, decodePairs_encodeChars]

theorem digit?_of_mem_encode {b : Bytes} {c : Char} (h : c ∈ (encode b).toList) :
    (digit? 16 c).isSome := by
  rw [encode, String.toList_ofList] at h
  obtain ⟨x, -, hx⟩ := List.mem_flatMap.1 h
  have hlt : x.toNat < 256 := x.toNat_lt
  simp only [List.mem_cons, List.not_mem_nil, or_false] at hx
  rcases hx with rfl | rfl
  · rw [digit, digit?_digitChar (by omega) (by omega : x.toNat / 16 < 16)]
    rfl
  · rw [digit, digit?_digitChar (by omega) (by omega : x.toNat % 16 < 16)]
    rfl

end LedgerClient.Text.Hex
