import LedgerClient.Text.Utf8
import Mathlib.Data.List.Basic
/-!
# ASCII text

The UTF-8 bytes of an ASCII text are its code points, one byte a character.

* `asciiByte c`           the byte of a character;
* `utf8_ofList_ascii`     the bytes of a text of such characters.
-/

namespace LedgerClient.Text

/-- the byte of an ASCII character -/
def asciiByte (c : Char) : UInt8 := UInt8.ofNat c.toNat

theorem utf8_ofList_ascii {cs : List Char} (h : ∀ c ∈ cs, c.toNat < 128) :
    utf8 (String.ofList cs) = cs.map asciiByte := by
  have hc : ∀ c ∈ cs, String.utf8EncodeChar c = [asciiByte c] := fun c hc =>
    String.utf8EncodeChar_eq_singleton (Char.utf8Size_eq_one_iff.2 (by
      have h128 : c.val.toNat < 128 := h c hc
      rw [UInt32.le_iff_toNat_le]
      show c.val.toNat ≤ 127
      omega))
  show (String.ofList cs).toByteArray.data.toList = _
  rw [String.toByteArray_ofList, List.utf8Encode, List.data_toByteArray, List.map_eq_flatMap]
  exact List.flatMap_congr hc

theorem ofNat_toNat_asciiByte {c : Char} (h : c.toNat < 128) :
    Char.ofNat (asciiByte c).toNat = c := by
  rw [asciiByte, UInt8.toNat_ofNat', Nat.mod_eq_of_lt (by omega), Char.ofNat_toNat]

theorem asciiByte_ofNat_toNat (x : UInt8) : asciiByte (Char.ofNat x.toNat) = x := by
  have hv : x.toNat.isValidChar := Or.inl (by have := x.toNat_lt; omega)
  have hn : (Char.ofNat x.toNat).toNat = x.toNat := by
    rw [Char.ofNat, dif_pos hv]
    rfl
  rw [asciiByte, hn, UInt8.ofNat_toNat]

end LedgerClient.Text
