import LedgerClient.Bytes
/-!
# Text and its UTF-8 bytes

* `utf8 s`, `ofUtf8? b`   the bytes of a text, and the text of well formed bytes;
* `scan b`                the characters of any bytes, `none` for each ill formed piece;
* `ofUtf8Lossy b`         the text with U+FFFD for each ill formed piece.

An ill formed piece is as long as it agrees with the start of some well formed character, and at
least one byte.
-/

namespace LedgerClient.Text

def utf8 (s : String) : Bytes := s.toUTF8.data.toList

def ofUtf8? (b : Bytes) : Option String := String.fromUTF8? ⟨b.toArray⟩

@[simp] theorem ofUtf8?_utf8 (s : String) : ofUtf8? (utf8 s) = some s := by
  unfold ofUtf8? utf8 String.fromUTF8?
  split
  · rfl
  · rename_i h
    exact absurd s.isValidUTF8 h

theorem utf8_of_ofUtf8? {b : Bytes} {s : String} (h : ofUtf8? b = some s) : utf8 s = b := by
  simp only [ofUtf8?, String.fromUTF8?] at h
  split at h
  · cases h; simp [utf8, String.fromUTF8]
  · cases h

theorem utf8_injective {s t : String} (h : utf8 s = utf8 t) : s = t := by
  have h' := congrArg ofUtf8? h
  simpa using h'

theorem utf8_append (s t : String) : utf8 (s ++ t) = utf8 s ++ utf8 t := by
  show (s ++ t).toByteArray.data.toList = s.toByteArray.data.toList ++ t.toByteArray.data.toList
  rw [String.toByteArray_append, ByteArray.data_append, Array.toList_append]

/-! ## Ill formed bytes -/

/-- what may follow a first byte: its own bits, how many bytes follow, and the range of the next -/
def shape (a : UInt8) : Option (Nat × Nat × UInt8 × UInt8) :=
  if a < 0x80 then some (a.toNat, 0, 0x80, 0xBF)
  else if 0xC2 ≤ a ∧ a ≤ 0xDF then some (a.toNat - 0xC0, 1, 0x80, 0xBF)
  else if a = 0xE0 then some (0, 2, 0xA0, 0xBF)
  else if a = 0xED then some (0xD, 2, 0x80, 0x9F)
  else if 0xE1 ≤ a ∧ a ≤ 0xEF then some (a.toNat - 0xE0, 2, 0x80, 0xBF)
  else if a = 0xF0 then some (0, 3, 0x90, 0xBF)
  else if 0xF1 ≤ a ∧ a ≤ 0xF3 then some (a.toNat - 0xF0, 3, 0x80, 0xBF)
  else if a = 0xF4 then some (4, 3, 0x80, 0x8F)
  else none

/-- reads up to `k` continuation bytes; `none` if one is missing, and what is left -/
def continuation : (k : Nat) → (lo hi : UInt8) → (code : Nat) → Bytes → Option Nat × Bytes
  | 0, _, _, code, r => (some code, r)
  | _ + 1, _, _, _, [] => (none, [])
  | k + 1, lo, hi, code, b :: r =>
    if lo ≤ b ∧ b ≤ hi then continuation k 0x80 0xBF (code * 64 + (b.toNat - 0x80)) r
    else (none, b :: r)

/-- `scan` with a bound on the number of characters -/
def scanFrom : (fuel : Nat) → Bytes → List (Option Char)
  | 0, _ => []
  | _ + 1, [] => []
  | fuel + 1, a :: r =>
    match shape a with
    | none => none :: scanFrom fuel r
    | some (code, k, lo, hi) =>
      match continuation k lo hi code r with
      | (some code, r) => some (Char.ofNat code) :: scanFrom fuel r
      | (none, r) => none :: scanFrom fuel r

/-- the characters of `b`, `none` for each ill formed piece -/
def scan (b : Bytes) : List (Option Char) := scanFrom b.length b

/-- the text of `b`, U+FFFD for each ill formed piece -/
def ofUtf8Lossy (b : Bytes) : String :=
  String.ofList ((scan b).map (·.getD '\uFFFD'))

end LedgerClient.Text
