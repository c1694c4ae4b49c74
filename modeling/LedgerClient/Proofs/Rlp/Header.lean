import LedgerClient.Proofs.Digits
import LedgerClient.Rlp.Item
/-!
# RLP headers, both ways

A header is one byte, or a byte and the shortest form of a length above 55, so it is read from one
spelling only.

* `headerOf isList n`        the header of a payload of `n` bytes, `bareHeader` that of a byte which
                             is its own item;
* `Header.parse_header`      a header is read back, whatever follows it;
* `Header.parse_of_cut`      a part of it is not read;
* `Header.parse_eq_ok_iff`   what a byte string begins with when its header is read.
-/

namespace LedgerClient.Rlp

/-- the byte that the headers of data and of lists count from -/
def offset (isList : Bool) : Nat := if isList then 0xc0 else 0x80

/-- the header in front of a payload of `n` bytes -/
def headerOf (isList : Bool) (n : Nat) : Header := ⟨isList, (header (offset isList) n).length, n⟩

/-- the header of a byte that is its own item -/
def bareHeader : Header := ⟨false, 0, 1⟩

namespace Header

theorem length_ofNat_pos {n : Nat} (h : 55 < n) : 0 < (Bytes.ofNat n).length := by
  rw [List.length_pos_iff]
  intro h0
  rw [Bytes.ofNat_eq_nil_iff] at h0
  omega

theorem readLong_ofNat (isList : Bool) {n : Nat} (h : 55 < n) (r : Bytes) :
    readLong isList (Bytes.ofNat n).length (Bytes.ofNat n ++ r) =
      .ok ⟨isList, 1 + (Bytes.ofNat n).length, n⟩ := by
  have hlead := Bytes.head?_ofNat_ne_zero n
  cases hb : Bytes.ofNat n with
  | nil => exact absurd hb (List.length_pos_iff.1 (length_ofNat_pos h))
  | cons x b =>
    have hx : x ≠ 0 := by
      rw [hb] at hlead
      simpa using hlead
    have hn : Bytes.toNat ((x :: b ++ r).take (x :: b).length) = n := by
      rw [List.take_left, ← hb, Bytes.toNat_ofNat]
    have hlen : ¬ (x :: b ++ r).length < (x :: b).length := by simp
    show (if x = 0 then _ else if (x :: b ++ r).length < (x :: b).length then _ else _) = _
    rw [if_neg hx, if_neg hlen]
    simp only [hn]
    rw [if_neg (by omega)]

/-- a length field that is cut short is not read -/
theorem readLong_of_cut {isList : Bool} {n : Nat} {r : Bytes} (h : r <+: Bytes.ofNat n)
    (hlt : r.length < (Bytes.ofNat n).length) :
    readLong isList (Bytes.ofNat n).length r = .error .tooShort := by
  cases r with
  | nil => rfl
  | cons x r =>
    have hx : x ≠ 0 := by
      intro h0
      obtain ⟨t, ht⟩ := h
      exact Bytes.head?_ofNat_ne_zero n (by rw [← ht, h0]; rfl)
    show (if x = 0 then _ else if (x :: r).length < _ then _ else _) = _
    rw [if_neg hx, if_pos hlt]

/-- a length field that is read is the shortest form of a number above 55 -/
theorem ofNat_of_readLong {isList : Bool} {k : Nat} {r : Bytes} {h : Header} (hk : 0 < k)
    (hr : readLong isList k r = .ok h) :
    ∃ n rest, 55 < n ∧ r = Bytes.ofNat n ++ rest ∧ (Bytes.ofNat n).length = k ∧
      h = ⟨isList, 1 + k, n⟩ := by
  unfold readLong at hr
  split at hr
  · cases hr
  · rename_i x b
    split at hr
    · cases hr
    · split at hr
      · cases hr
      · rename_i hx hlen
        simp only at hr
        split at hr
        · cases hr
        · rename_i hn
          cases hr
          have hlead : ((x :: b).take k).head? ≠ some 0 := by
            obtain ⟨k, rfl⟩ : ∃ j, k = j + 1 := ⟨k - 1, by omega⟩
            simpa using hx
          have e := Bytes.ofNat_toNat hlead
          refine ⟨_, (x :: b).drop k, by omega, ?_, ?_, rfl⟩
          · rw [e, List.take_append_drop]
          · rw [e, List.length_take]
            omega

theorem parse_bare {x : UInt8} (hx : x < 0x80) (r : Bytes) : parse (x :: r) = .ok bareHeader := by
  have h : x.toNat ≤ 0x7f := by
    have h' : x.toNat < 128 := UInt8.lt_iff_toNat_lt.1 hx
    omega
  simp only [parse, if_pos h]
  rfl

theorem toNat_ofNat_lt {n : Nat} (h : n < 256) : (UInt8.ofNat n).toNat = n := by
  rw [UInt8.toNat_ofNat', Nat.mod_eq_of_lt h]

/-- the first byte of a long header says how many bytes of length follow it -/
theorem parse_long (isList : Bool) {k : Nat} (h0 : 0 < k) (h8 : k ≤ 8) (r : Bytes) :
    parse (UInt8.ofNat (offset isList + 55 + k) :: r) = readLong isList k r := by
  cases isList with
  | false =>
    have e : (UInt8.ofNat (0x80 + 55 + k)).toNat = 0xb7 + k := toNat_ofNat_lt (by omega)
    show parse (UInt8.ofNat (0x80 + 55 + k) :: r) = _
    simp only [parse, e]
    rw [if_neg (by omega), if_neg (by omega), if_pos (by omega), Nat.add_sub_cancel_left]
  | true =>
    have e : (UInt8.ofNat (0xc0 + 55 + k)).toNat = 0xf7 + k := toNat_ofNat_lt (by omega)
    show parse (UInt8.ofNat (0xc0 + 55 + k) :: r) = _
    simp only [parse, e]
    rw [if_neg (by omega), if_neg (by omega), if_neg (by omega), if_neg (by omega),
      Nat.add_sub_cancel_left]

theorem length_ofNat_le_eight {n : Nat} (h : n < 2 ^ 64) : (Bytes.ofNat n).length ≤ 8 :=
  (Bytes.length_ofNat_le_iff 8 n).2 h

theorem parse_header (isList : Bool) {n : Nat} (hn : n < 2 ^ 64) (r : Bytes) :
    parse (header (offset isList) n ++ r) = .ok (headerOf isList n) := by
  unfold headerOf header
  by_cases h55 : n ≤ 55
  · rw [if_pos h55]
    cases isList with
    | false =>
      have e : (UInt8.ofNat (0x80 + n)).toNat = 0x80 + n := toNat_ofNat_lt (by omega)
      show parse (UInt8.ofNat (0x80 + n) :: r) = .ok ⟨false, 1, n⟩
      simp only [parse, e]
      rw [if_neg (by omega), if_pos (by omega), Nat.add_sub_cancel_left]
    | true =>
      have e : (UInt8.ofNat (0xc0 + n)).toNat = 0xc0 + n := toNat_ofNat_lt (by omega)
      show parse (UInt8.ofNat (0xc0 + n) :: r) = .ok ⟨true, 1, n⟩
      simp only [parse, e]
      rw [if_neg (by omega), if_neg (by omega), if_neg (by omega), if_pos (by omega),
        Nat.add_sub_cancel_left]
  · have h55 : 55 < n := Nat.lt_of_not_le h55
    rw [if_neg (by omega), List.cons_append,
      parse_long isList (length_ofNat_pos h55) (length_ofNat_le_eight hn), readLong_ofNat isList h55,
      List.length_cons, Nat.add_comm 1]

/-- a header that is cut short is not read -/
theorem parse_of_cut {isList : Bool} {n : Nat} (hn : n < 2 ^ 64) {short : Bytes}
    (h : short <+: header (offset isList) n) (hne : short ≠ header (offset isList) n) :
    parse short = .error .tooShort := by
  cases short with
  | nil => rfl
  | cons a r =>
    unfold header at h hne
    by_cases h55 : n ≤ 55
    · -- one byte is the whole header
      rw [if_pos h55] at h hne
      obtain ⟨rfl, hr⟩ := List.cons_prefix_cons.1 h
      exact absurd (by rw [List.prefix_nil.1 hr]) hne
    · have h55 : 55 < n := Nat.lt_of_not_le h55
      rw [if_neg (by omega)] at h hne
      obtain ⟨rfl, hr⟩ := List.cons_prefix_cons.1 h
      have hlt : r.length < (Bytes.ofNat n).length :=
        Nat.lt_of_le_of_ne hr.length_le fun hl => hne (by rw [hr.eq_of_length hl])
      rw [parse_long isList (length_ofNat_pos h55) (length_ofNat_le_eight hn)]
      exact readLong_of_cut hr hlt

theorem header_short (isList : Bool) {a : UInt8} {n : Nat} (ha : a.toNat = offset isList + n)
    (hn : n ≤ 55) : header (offset isList) n = [a] := by
  rw [header, if_pos hn, ← ha, UInt8.ofNat_toNat]

theorem header_long (isList : Bool) {a : UInt8} {n k : Nat}
    (ha : a.toNat = offset isList + 55 + k) (hn : 55 < n) (hk : (Bytes.ofNat n).length = k) :
    header (offset isList) n = a :: Bytes.ofNat n := by
  rw [header, if_neg (by omega), hk, ← ha, UInt8.ofNat_toNat]

theorem lt_two_pow_of_length {n k : Nat} (hk : (Bytes.ofNat n).length = k) (h8 : k ≤ 8) :
    n < 2 ^ 64 := (Bytes.length_ofNat_le_iff 8 n).1 (hk ▸ h8)

/-- what a byte string begins with when its header is read -/
theorem parse_eq_ok_iff {b : Bytes} {h : Header} :
    parse b = .ok h ↔
      (h = bareHeader ∧ ∃ x r, x < 0x80 ∧ b = x :: r) ∨
      (∃ isList n r, n < 2 ^ 64 ∧ h = headerOf isList n ∧ b = header (offset isList) n ++ r) := by
  constructor
  · intro hp
    cases b with
    | nil => cases hp
    | cons a r =>
      simp only [parse] at hp
      have hlt := a.toNat_lt
      -- the ranges of the first byte: bare, short and long data, short and long lists
      split at hp
      · rename_i h7f
        cases hp
        have hx : a < 0x80 := UInt8.lt_iff_toNat_lt.2 (show a.toNat < 128 by omega)
        exact .inl ⟨rfl, a, r, hx, rfl⟩
      split at hp
      · cases hp
        have hh := header_short false (a := a) (n := a.toNat - 0x80)
          (show a.toNat = 0x80 + _ by omega) (by omega)
        exact .inr ⟨false, a.toNat - 0x80, r, by omega, by rw [headerOf, hh]; rfl, by rw [hh]; rfl⟩
      split at hp
      · obtain ⟨n, rest, hn, rfl, hk, rfl⟩ := ofNat_of_readLong (by omega) hp
        have hh := header_long false (a := a) (show a.toNat = 0x80 + 55 + _ by omega) hn hk
        refine .inr ⟨false, n, rest, lt_two_pow_of_length hk (by omega), ?_, by rw [hh]; rfl⟩
        rw [headerOf, hh, List.length_cons, hk, Nat.add_comm 1]
      split at hp
      · cases hp
        have hh := header_short true (a := a) (n := a.toNat - 0xc0)
          (show a.toNat = 0xc0 + _ by omega) (by omega)
        exact .inr ⟨true, a.toNat - 0xc0, r, by omega, by rw [headerOf, hh]; rfl, by rw [hh]; rfl⟩
      · obtain ⟨n, rest, hn, rfl, hk, rfl⟩ := ofNat_of_readLong (by omega) hp
        have hh := header_long true (a := a) (show a.toNat = 0xc0 + 55 + _ by omega) hn hk
        refine .inr ⟨true, n, rest, lt_two_pow_of_length hk (by omega), ?_, by rw [hh]; rfl⟩
        rw [headerOf, hh, List.length_cons, hk, Nat.add_comm 1]
  · rintro (⟨rfl, x, r, hx, rfl⟩ | ⟨isList, n, r, hn, rfl, rfl⟩)
    · exact parse_bare hx r
    · exact parse_header isList hn r

end Header

end LedgerClient.Rlp
