import LedgerClient.Param.List
import LedgerClient.Proofs.Check
import LedgerClient.Proofs.Rlp.Item
/-!
# Parameter lists, both ways

* `Param.itemsBytesFrom_eq_ok_iff`   the bytes of items are those of each item, in order;
* `ParamList.decode_eq_ok_iff`       exactly which bytes are read as a parameter list;
* `ParamList.decode_listOf`          a parameter list is read back.
-/

namespace LedgerClient

open Rlp

namespace Param

theorem itemsBytesFrom_eq_ok_iff {n : Nat} {items : List String} {bs : List Bytes} :
    itemsBytesFrom n items = .ok bs ↔ bs.length = items.length ∧
      ∀ i item b, items[i]? = some item → bs[i]? = some b → itemBytes (n + i) item = .ok b :=
  numbered_eq_ok_iff (F := itemsBytesFrom) (fun _ => rfl) fun _ _ _ => rfl

theorem itemBytes_of_itemsBytes {items : List String} {bs : List Bytes}
    (h : itemsBytes items = .ok bs) {i : Nat} {item : String} {b : Bytes}
    (hi : items[i]? = some item) (hb : bs[i]? = some b) : itemBytes i item = .ok b := by
  simpa using (itemsBytesFrom_eq_ok_iff.1 h).2 i item b hi hb

theorem encode_eq_ok_iff {items : List String} {b : Bytes} :
    encode items = .ok b ↔ ∃ bs, itemsBytes items = .ok bs ∧ listOf bs = b :=
  map_eq_ok_iff

end Param

namespace ParamList

theorem payloads_map_data {bs : List Bytes} (h : ∀ b ∈ bs, b.length < 2 ^ 64) :
    payloads (bs.map data) = .ok bs := by
  induction bs with
  | nil => rfl
  | cons b bs ih =>
    rw [List.map_cons, payloads, toData_data (h b List.mem_cons_self), ok_bind,
      ih fun x hx => h x (List.mem_cons_of_mem b hx)]
    rfl

theorem isList_header {n : Nat} (h : n < 2 ^ 64) (r : Bytes) :
    isList (header 0xc0 n ++ r) = true := by
  have h8 := Header.length_ofNat_le_eight h
  rw [header]
  split
  · show decide (0xc0 ≤ UInt8.ofNat (0xc0 + n)) = true
    rw [decide_eq_true_eq, UInt8.le_iff_toNat_le, Header.toNat_ofNat_lt (by omega)]
    exact Nat.le_add_right _ _
  · show decide (0xc0 ≤ UInt8.ofNat (0xc0 + 55 + (Bytes.ofNat n).length)) = true
    rw [decide_eq_true_eq, UInt8.le_iff_toNat_le, Header.toNat_ofNat_lt (by omega)]
    show 192 ≤ _
    omega

theorem isList_eq {h : Header} {b payload : Bytes} (hi : IsItem h b payload) :
    isList b = h.isList := by
  cases hi with
  | bare hx =>
    have hlt := UInt8.lt_iff_toNat_lt.1 hx
    show decide (0xc0 ≤ _) = false
    rw [decide_eq_false_iff_not, UInt8.le_iff_toNat_le]
    exact fun h => absurd (Nat.lt_of_le_of_lt h hlt) (by decide)
  | headed l hn =>
    cases l with
    | true => exact isList_header hn payload
    | false =>
      have h8 := Header.length_ofNat_le_eight hn
      -- a header of data begins below the header of the shortest list
      have hlow : ∀ n : Nat, n < 0xc0 → ¬ 0xc0 ≤ UInt8.ofNat n := by
        intro n hlt h
        rw [UInt8.le_iff_toNat_le, Header.toNat_ofNat_lt (by omega)] at h
        exact absurd (Nat.lt_of_le_of_lt h hlt) (by decide)
      show isList (header 0x80 payload.length ++ payload) = false
      rw [header]
      split
      · exact decide_eq_false (hlow _ (by omega))
      · exact decide_eq_false (hlow _ (by omega))

theorem map_data_of_payloads {is bs : List Bytes} (his : ∀ i ∈ is, Single i)
    (h : payloads is = .ok bs) : bs.map data = is := by
  induction is generalizing bs with
  | nil =>
    cases h
    rfl
  | cons i is ih =>
    obtain ⟨x, hx, h⟩ := bind_eq_ok_iff.1 h
    obtain ⟨xs, hxs, h⟩ := bind_eq_ok_iff.1 h
    obtain rfl := pure_eq_ok_iff.1 h
    rw [List.map_cons, data_of_toData (his i List.mem_cons_self) hx,
      ih (fun j hj => his j (List.mem_cons_of_mem i hj)) hxs]

/-- a parameter list is one list whose items are all data -/
theorem decode_eq_ok_iff_isItem {b : Bytes} {bs : List Bytes} :
    decode b = .ok ⟨bs⟩ ↔ ∃ h payload, IsItem h b payload ∧ h.isList = true ∧
      payloads (Rlp.items payload) = .ok bs := by
  unfold decode
  constructor
  · intro h
    split at h
    · rename_i hl
      split at h
      · cases h
      · rename_i g he
        obtain ⟨payload, hi⟩ := exact_eq_ok_iff.1 he
        split at h
        · cases h
        · rename_i hp
          cases h
          rw [hi.drop_size] at hp
          exact ⟨g, payload, hi, (isList_eq hi).symm.trans hl, hp⟩
    · cases h
  · rintro ⟨h, payload, hi, hl, hp⟩
    rw [if_pos ((isList_eq hi).trans hl), exact_eq_ok_iff.2 ⟨payload, hi⟩]
    dsimp only
    rw [hi.drop_size, hp]

theorem decode_eq_ok_iff {b : Bytes} {l : ParamList} :
    decode b = .ok l ↔ ∃ tail, split? tail = none ∧
      ((l.items.map data).flatten ++ tail).length < 2 ^ 64 ∧
        b = listWith (l.items.map data) tail := by
  refine decode_eq_ok_iff_isItem.trans ⟨?_, ?_⟩
  · rintro ⟨h, payload, hi, hl, hp⟩
    obtain ⟨his, tail, ht, e⟩ := items_eq_iff.1 (rfl : Rlp.items payload = _)
    rw [← map_data_of_payloads his hp] at e
    cases hi with
    | bare => cases hl
    | headed isList hn =>
      obtain rfl : isList = true := hl
      subst e
      exact ⟨tail, ht, hn, rfl⟩
  · rintro ⟨tail, ht, hlen, rfl⟩
    have hp : (l.items.map data).flatten.length < 2 ^ 64 := by
      rw [List.length_append] at hlen
      exact Nat.lt_of_le_of_lt (Nat.le_add_right _ _) hlen
    have hsingle : ∀ i ∈ l.items.map data, Single i := single_of_data hp (by
      intro i hi
      obtain ⟨x, -, rfl⟩ := List.mem_map.1 hi
      exact ⟨x, rfl⟩)
    have hitems : Rlp.items ((l.items.map data).flatten ++ tail) = l.items.map data :=
      items_eq_iff.2 ⟨hsingle, tail, ht, rfl⟩
    refine ⟨_, _, isItem_listWith hlen, rfl, ?_⟩
    rw [hitems]
    exact payloads_map_data fun x hx => length_of_data_mem hp (List.mem_map_of_mem hx)

theorem decode_listOf {bs : List Bytes} (h : (Param.listOf bs).length < 2 ^ 64) :
    decode (Param.listOf bs) = .ok ⟨bs⟩ := by
  refine decode_eq_ok_iff.2 ⟨[], split?_nil, ?_, (listWith_nil _).symm⟩
  rw [Param.listOf, Rlp.list, List.length_append] at h
  rw [List.append_nil]
  exact Nat.lt_of_le_of_lt (Nat.le_add_left _ _) h

end ParamList

end LedgerClient
