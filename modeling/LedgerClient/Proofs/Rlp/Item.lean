import LedgerClient.Proofs.Check
import LedgerClient.Proofs.Rlp.Header
/-!
# The grammar of RLP items

An item is a byte below `0x80`, or a header and a payload of the length that the header tells.
`IsItem` says so without reading anything; the readers accept exactly these items.

* `IsItem h item payload`   `item` is one item with the header `h` around `payload`;
* `exact_eq_ok_iff`         the byte strings that are one item;
* `exact_append`, `exact_of_cut`   more than an item and less than one are neither;
* `split?_eq_some_iff`      the first item of a byte string and what follows;
* `items_eq_iff`            the items of a payload, up to a tail that begins with no item;
* `listWith items tail`     the list of `items` with `tail` behind the last one;
* `data_of_toData`          an item that reads as data is the one written for it.
-/

namespace LedgerClient.Rlp

inductive IsItem : Header → Bytes → Bytes → Prop
  | bare {x : UInt8} (hx : x < 0x80) : IsItem bareHeader [x] [x]
  | headed (isList : Bool) {payload : Bytes} (hn : payload.length < 2 ^ 64) :
    IsItem (headerOf isList payload.length) (header (offset isList) payload.length ++ payload)
      payload

/-- `b` is one item -/
def Single (b : Bytes) : Prop := ∃ h payload, IsItem h b payload

namespace IsItem

variable {h : Header} {item payload : Bytes}

theorem parse_append (hi : IsItem h item payload) (r : Bytes) :
    Header.parse (item ++ r) = .ok h := by
  cases hi with
  | bare hx => exact Header.parse_bare hx r
  | headed isList hn =>
    rw [List.append_assoc]
    exact Header.parse_header isList hn _

theorem parse_self (hi : IsItem h item payload) : Header.parse item = .ok h := by
  simpa using hi.parse_append []

theorem length_eq (hi : IsItem h item payload) : h.size + h.length = item.length := by
  cases hi with
  | bare => rfl
  | headed => rw [List.length_append]; rfl

theorem drop_size (hi : IsItem h item payload) : item.drop h.size = payload := by
  cases hi with
  | bare => rfl
  | headed => exact List.drop_left

theorem length_payload (hi : IsItem h item payload) : payload.length = h.length := by
  cases hi with
  | bare => rfl
  | headed => rfl

theorem length_pos (hi : IsItem h item payload) : 0 < item.length := by
  cases hi with
  | bare => exact Nat.one_pos
  | headed isList =>
    rw [List.length_append, header]
    split <;> simp

end IsItem

/-- a header with room for its payload is read off an item in front -/
theorem read_eq_ok_iff {b : Bytes} {h : Header} :
    Header.read b = .ok h ↔ ∃ item payload rest, IsItem h item payload ∧ b = item ++ rest := by
  constructor
  · intro hr
    unfold Header.read at hr
    cases hp : Header.parse b with
    | error f => rw [hp] at hr; cases hr
    | ok g =>
      rw [hp] at hr
      replace hr : (if g.size + g.length ≤ b.length then Except.ok g else .error Fault.tooShort)
        = .ok h := hr
      split at hr
      · rename_i hle
        cases hr
        rcases Header.parse_eq_ok_iff.1 hp with ⟨rfl, x, r, hx, rfl⟩ | ⟨l, n, r, hn, rfl, rfl⟩
        · exact ⟨[x], [x], r, .bare hx, rfl⟩
        · have hlen : n ≤ r.length := by
            rw [List.length_append] at hle
            exact Nat.le_of_add_le_add_left hle
          have ht : (r.take n).length = n := List.length_take_of_le hlen
          have hn' : (r.take n).length < 2 ^ 64 := by rwa [ht]
          have hi := IsItem.headed l hn'
          rw [ht] at hi
          exact ⟨_, _, r.drop n, hi, by rw [List.append_assoc, List.take_append_drop]⟩
      · cases hr
  · rintro ⟨item, payload, rest, hi, rfl⟩
    unfold Header.read
    rw [hi.parse_append rest]
    show (if h.size + h.length ≤ (item ++ rest).length then Except.ok h else _) = _
    rw [if_pos (by rw [hi.length_eq, List.length_append]; omega)]

theorem exact_eq_ok_iff {b : Bytes} {h : Header} :
    Rlp.exact b = .ok h ↔ ∃ payload, IsItem h b payload := by
  unfold Rlp.exact
  constructor
  · intro he
    cases hr : Header.read b with
    | error f => rw [hr] at he; cases he
    | ok g =>
      rw [hr] at he
      replace he : (if g.size + g.length = b.length then Except.ok g else .error Fault.trailingBytes)
        = .ok h := he
      split at he
      · rename_i hlen
        cases he
        obtain ⟨item, payload, rest, hi, rfl⟩ := read_eq_ok_iff.1 hr
        rw [hi.length_eq, List.length_append] at hlen
        have h0 : rest = [] := List.length_eq_zero_iff.1 (by omega)
        rw [h0, List.append_nil]
        exact ⟨payload, hi⟩
      · cases he
  · rintro ⟨payload, hi⟩
    rw [read_eq_ok_iff.2 ⟨b, payload, [], hi, (List.append_nil b).symm⟩]
    show (if h.size + h.length = b.length then Except.ok h else _) = _
    rw [if_pos hi.length_eq]

/-- an item with bytes behind it is not exactly one item -/
theorem exact_append {item extra : Bytes} (hi : Single item) (he : extra ≠ []) :
    Rlp.exact (item ++ extra) = .error .trailingBytes := by
  obtain ⟨h, payload, hi⟩ := hi
  have hpos := List.length_pos_iff.2 he
  unfold Rlp.exact
  rw [read_eq_ok_iff.2 ⟨item, payload, extra, hi, rfl⟩]
  show (if h.size + h.length = (item ++ extra).length then Except.ok h else _) = _
  rw [if_neg (by rw [hi.length_eq, List.length_append]; omega)]

/-- a payload that is cut short does not fill its header -/
theorem read_of_short_payload {b : Bytes} {h : Header} (hp : Header.parse b = .ok h)
    (hlt : b.length < h.size + h.length) : Header.read b = .error .tooShort := by
  unfold Header.read
  rw [hp]
  show (if h.size + h.length ≤ b.length then Except.ok h else _) = _
  rw [if_neg (Nat.not_le.2 hlt)]

theorem IsItem.read_of_cut {h : Header} {item payload short : Bytes} (hi : IsItem h item payload)
    (hcut : short <+: item) (hlt : short.length < item.length) :
    Header.read short = .error .tooShort := by
  rw [← hi.length_eq] at hlt
  cases hi with
  | bare hx =>
    obtain rfl : short = [] := List.length_eq_zero_iff.1 (Nat.lt_one_iff.1 hlt)
    rfl
  | headed isList hn =>
    -- the cut is in the header, or behind it
    rcases List.prefix_or_prefix_of_prefix hcut (List.prefix_append _ payload) with hcut | ⟨part, rfl⟩
    · by_cases hfull : short = header (offset isList) payload.length
      · have hp := Header.parse_header isList hn []
        rw [List.append_nil, ← hfull] at hp
        exact read_of_short_payload hp hlt
      · rw [Header.read, Header.parse_of_cut hn hcut hfull]
        rfl
    · exact read_of_short_payload (Header.parse_header isList hn part) hlt

/-- a part of an item is not exactly one item -/
theorem exact_of_cut {item short : Bytes} (hi : Single item) (hcut : short <+: item)
    (hne : short ≠ item) : Rlp.exact short = .error .tooShort := by
  obtain ⟨h, payload, hi⟩ := hi
  have hlt : short.length < item.length :=
    Nat.lt_of_le_of_ne hcut.length_le fun hl => hne (hcut.eq_of_length hl)
  rw [Rlp.exact, hi.read_of_cut hcut hlt]
  rfl

theorem split?_eq_some_iff {b item rest : Bytes} :
    split? b = some (item, rest) ↔ Single item ∧ b = item ++ rest := by
  unfold split?
  constructor
  · intro hs
    split at hs
    · rename_i h hr
      obtain ⟨i, payload, r, hi, rfl⟩ := read_eq_ok_iff.1 hr
      rw [hi.length_eq, List.take_left, List.drop_left] at hs
      cases hs
      exact ⟨⟨h, payload, hi⟩, rfl⟩
    · cases hs
  · rintro ⟨⟨h, payload, hi⟩, rfl⟩
    rw [read_eq_ok_iff.2 ⟨item, payload, rest, hi, rfl⟩]
    show some ((item ++ rest).take (h.size + h.length), (item ++ rest).drop (h.size + h.length)) = _
    rw [hi.length_eq, List.take_left, List.drop_left]

theorem Single.length_pos {b : Bytes} (hb : Single b) : 0 < b.length := by
  obtain ⟨_, _, hi⟩ := hb
  exact hi.length_pos

/-! ## the items of a payload -/

theorem split?_nil : split? [] = none := rfl

theorem itemsFrom_flatten_append {is : List Bytes} (his : ∀ i ∈ is, Single i) {tail : Bytes}
    (ht : split? tail = none) {fuel : Nat} (hf : (is.flatten ++ tail).length ≤ fuel) :
    itemsFrom fuel (is.flatten ++ tail) = is := by
  induction is generalizing fuel with
  | nil =>
    cases fuel with
    | zero => rfl
    | succ fuel => rw [List.flatten_nil, List.nil_append, itemsFrom, ht]
  | cons i is ih =>
    have hi : Single i := his i List.mem_cons_self
    -- an item takes at least one byte, so the fuel lasts
    have hpos := hi.length_pos
    rw [List.flatten_cons, List.append_assoc] at hf ⊢
    rw [List.length_append] at hf
    obtain ⟨fuel, rfl⟩ : ∃ k, fuel = k + 1 := ⟨fuel - 1, by omega⟩
    rw [itemsFrom, split?_eq_some_iff.2 ⟨hi, rfl⟩]
    show i :: itemsFrom fuel (is.flatten ++ tail) = i :: is
    rw [ih (fun j hj => his j (List.mem_cons_of_mem i hj)) (by omega)]

theorem exists_tail_itemsFrom {fuel : Nat} {b : Bytes} (hf : b.length ≤ fuel) :
    (∀ i ∈ itemsFrom fuel b, Single i) ∧
      ∃ tail, split? tail = none ∧ b = (itemsFrom fuel b).flatten ++ tail := by
  induction fuel generalizing b with
  | zero =>
    obtain rfl : b = [] := List.length_eq_zero_iff.1 (by omega)
    exact ⟨by simp [itemsFrom], [], split?_nil, rfl⟩
  | succ fuel ih =>
    rw [itemsFrom]
    split
    · rename_i item rest hs
      obtain ⟨hi, rfl⟩ := split?_eq_some_iff.1 hs
      have hpos := hi.length_pos
      rw [List.length_append] at hf
      obtain ⟨his, tail, ht, e⟩ := ih (b := rest) (by omega)
      refine ⟨fun j hj => ?_, tail, ht, ?_⟩
      · rcases List.mem_cons.1 hj with rfl | hj
        · exact hi
        · exact his j hj
      · rw [List.flatten_cons, List.append_assoc, ← e]
    · rename_i hs
      exact ⟨by simp, b, hs, rfl⟩

/-- the items of a payload are those in front of a tail that begins with no item -/
theorem items_eq_iff {payload : Bytes} {is : List Bytes} :
    items payload = is ↔
      (∀ i ∈ is, Single i) ∧ ∃ tail, split? tail = none ∧ payload = is.flatten ++ tail := by
  constructor
  · rintro rfl
    exact exists_tail_itemsFrom (Nat.le_refl _)
  · rintro ⟨his, tail, ht, rfl⟩
    exact itemsFrom_flatten_append his ht (Nat.le_refl _)

/-! ## lists with a tail -/

/-- the list of `items` with `tail` behind the last one -/
def listWith (items : List Bytes) (tail : Bytes) : Bytes :=
  header (offset true) (items.flatten ++ tail).length ++ (items.flatten ++ tail)

theorem listWith_nil (is : List Bytes) : listWith is [] = list is := by
  rw [listWith, List.append_nil]
  rfl

theorem isItem_listWith {is : List Bytes} {tail : Bytes}
    (h : (is.flatten ++ tail).length < 2 ^ 64) :
    IsItem (headerOf true (is.flatten ++ tail).length) (listWith is tail) (is.flatten ++ tail) :=
  .headed true h

/-- the header tells the length of the payload, so the tail is told by the bytes -/
theorem listWith_inj {is : List Bytes} {s t : Bytes} (hs : (is.flatten ++ s).length < 2 ^ 64)
    (ht : (is.flatten ++ t).length < 2 ^ 64) (h : listWith is s = listWith is t) : s = t := by
  have hi := isItem_listWith hs
  have hj := isItem_listWith ht
  have hh : headerOf true (is.flatten ++ s).length = headerOf true (is.flatten ++ t).length :=
    Except.ok.inj (hi.parse_self.symm.trans ((congrArg Header.parse h).trans hj.parse_self))
  have hp : is.flatten ++ s = is.flatten ++ t := by
    rw [← hi.drop_size, ← hj.drop_size, ← hh]
    exact congrArg _ h
  exact List.append_cancel_left hp

/-! ## data -/

theorem isItem_data {b : Bytes} (hb : b.length < 2 ^ 64) :
    ∃ h, h.isList = false ∧ IsItem h (data b) b := by
  have hh : IsItem (headerOf false b.length) (header 0x80 b.length ++ b) b := .headed false hb
  unfold data
  split
  · rename_i x
    split
    · rename_i hx
      exact ⟨bareHeader, rfl, .bare hx⟩
    · exact ⟨_, rfl, hh⟩
  · exact ⟨_, rfl, hh⟩

/-- how a reader of data takes the payload of an item apart from its header -/
def dataOf (item payload : Bytes) : Except Fault Bytes :=
  match item, payload with
  | 0x81 :: _, [x] => if x < 0x80 then .error .invalidIndirection else .ok payload
  | _, _ => .ok payload

theorem dataOf_bare {x : UInt8} (hx : x < 0x80) : dataOf [x] [x] = .ok [x] := by
  unfold dataOf
  split
  · rename_i h _
    cases h
    exact absurd hx (by decide)
  · rfl

theorem dataOf_headed (payload : Bytes) :
    dataOf (header 0x80 payload.length ++ payload) payload =
      if header 0x80 payload.length ++ payload = data payload then .ok payload
      else .error .invalidIndirection := by
  match payload with
  | [] => rfl
  | [x] =>
    show (if x < 0x80 then _ else _) = if [0x81, x] = (if x < 0x80 then [x] else [0x81, x]) then _ else _
    by_cases hx : x < 0x80
    · rw [if_pos hx, if_pos hx, if_neg (by simp)]
    · rw [if_neg hx, if_neg hx, if_pos rfl]
  | x :: y :: r =>
    have hd : data (x :: y :: r) = header 0x80 (x :: y :: r).length ++ (x :: y :: r) := rfl
    rw [hd, if_pos rfl]
    unfold dataOf
    split
    · rename_i h
      cases h
    · rfl

/-- data is read from the spelling that is written, and from no other -/
theorem IsItem.toData_eq {h : Header} {item payload : Bytes} (hi : IsItem h item payload) :
    toData item =
      if h.isList then .error .expectedData
      else if item = data payload then .ok payload else .error .invalidIndirection := by
  have hp : (item.drop h.size).take h.length = payload := by
    rw [hi.drop_size, ← hi.length_payload, List.take_length]
  have hread : toData item =
      if h.isList then .error .expectedData
      else dataOf item ((item.drop h.size).take h.length) := by
    unfold toData
    rw [hi.parse_self]
    rfl
  rw [hread, hp]
  cases hi with
  | bare hx =>
    have hd : data [_] = [_] := if_pos hx
    rw [dataOf_bare hx]
    exact (if_pos hd.symm).symm
  | headed isList hn =>
    cases isList with
    | true => rfl
    | false => exact dataOf_headed payload

theorem toData_data {b : Bytes} (hb : b.length < 2 ^ 64) : toData (data b) = .ok b := by
  obtain ⟨h, hl, hi⟩ := isItem_data hb
  rw [hi.toData_eq, hl, if_neg (by decide), if_pos rfl]

theorem single_data {b : Bytes} (hb : b.length < 2 ^ 64) : Single (data b) := by
  obtain ⟨h, _, hi⟩ := isItem_data hb
  exact ⟨h, b, hi⟩

theorem data_of_toData {item b : Bytes} (hs : Single item) (h : toData item = .ok b) :
    data b = item := by
  obtain ⟨g, payload, hi⟩ := hs
  rw [hi.toData_eq] at h
  split at h
  · cases h
  · split at h
    · rename_i e
      cases h
      exact e.symm
    · cases h

theorem data_of_one_lt_length {b : Bytes} (h : 1 < b.length) :
    data b = header 0x80 b.length ++ b := by
  unfold data
  split
  · exact absurd h (Nat.lt_irrefl 1)
  · rfl

theorem length_le_length_data (b : Bytes) : b.length ≤ (data b).length := by
  unfold data
  split
  · split <;> simp
  · simp

theorem length_header_le {off n : Nat} (h : n < 2 ^ 64) : (header off n).length ≤ 9 := by
  have h8 := Header.length_ofNat_le_eight h
  unfold header
  split
  · rw [List.length_singleton]
    omega
  · rw [List.length_cons]
    omega

theorem length_data_le {b : Bytes} (h : b.length < 2 ^ 64) : (data b).length ≤ b.length + 9 := by
  have hh : (header 0x80 b.length).length ≤ 9 := length_header_le h
  unfold data
  split
  · split
    · exact Nat.le_add_right _ _
    · rw [List.length_append]
      exact Nat.le_of_ble_eq_true rfl
  · rw [List.length_append]
    omega

/-- what is written inside a payload of bounded length is itself bounded -/
theorem length_of_data_mem {is : List Bytes} (h : is.flatten.length < 2 ^ 64) {b : Bytes}
    (hb : data b ∈ is) : b.length < 2 ^ 64 := by
  have h1 := length_le_length_data b
  have h2 := (List.sublist_flatten_of_mem hb).length_le
  omega

theorem single_of_data {is : List Bytes} (h : is.flatten.length < 2 ^ 64)
    (hd : ∀ i ∈ is, ∃ b, i = data b) : ∀ i ∈ is, Single i := by
  intro i hi
  obtain ⟨b, rfl⟩ := hd i hi
  exact single_data (length_of_data_mem h hi)

/-! ## numbers and texts -/

theorem toNat_nat {w n : Nat} (hw : w < 2 ^ 64) (hn : n < 256 ^ w) : toNat w (nat n) = .ok n := by
  have hlen : (Bytes.ofNat n).length ≤ w := (Bytes.length_ofNat_le_iff w n).2 hn
  have hlead := Bytes.head?_ofNat_ne_zero n
  have hval := Bytes.toNat_ofNat n
  unfold toNat nat
  rw [toData_data (by omega)]
  cases hb : Bytes.ofNat n with
  | nil =>
    rw [hb] at hval
    exact congrArg Except.ok hval
  | cons x r =>
    rw [hb] at hlead hval hlen
    have hx : x ≠ 0 := by simpa using hlead
    have hr : r.length + 1 ≤ max w 1 := by
      rw [List.length_cons] at hlen
      omega
    show (if r.length + 1 ≤ max w 1 then if x = 0 then _ else Except.ok (Bytes.toNat (x :: r)) else _)
      = Except.ok n
    rw [if_pos hr, if_neg hx, hval]

/-- an item that reads as a number is the one written for it, and the number is in range -/
theorem nat_of_toNat {w n : Nat} (hw : 0 < w) {item : Bytes} (hs : Single item)
    (h : toNat w item = .ok n) : nat n = item ∧ n < 256 ^ w := by
  unfold toNat at h
  cases hd : toData item with
  | error f => rw [hd] at h; cases h
  | ok b =>
    rw [hd] at h
    have hitem := data_of_toData hs hd
    cases b with
    | nil =>
      cases h
      exact ⟨hitem, Nat.pow_pos (by omega)⟩
    | cons x r =>
      replace h : (if r.length + 1 ≤ max w 1 then
        if x = 0 then .error Fault.invalidIndirection else Except.ok (Bytes.toNat (x :: r))
        else .error Fault.tooBig) = .ok n := h
      split at h
      · rename_i hr
        split at h
        · cases h
        · rename_i hx
          cases h
          have hb : Bytes.ofNat (Bytes.toNat (x :: r)) = x :: r :=
            Bytes.ofNat_toNat (by simpa using hx)
          refine ⟨by rw [nat, hb, hitem], (Bytes.length_ofNat_le_iff w _).1 ?_⟩
          rw [hb, List.length_cons]
          omega
      · cases h

theorem toText_text {s : String} (hs : (Text.utf8 s).length < 2 ^ 64) : toText (text s) = .ok s := by
  simp only [toText, text, toData_data hs, ok_bind, Text.ofUtf8?_utf8]
  rfl

theorem text_of_toText {item : Bytes} {s : String} (hs : Single item) (h : toText item = .ok s) :
    text s = item := by
  obtain ⟨b, hd, h⟩ := bind_eq_ok_iff.1 h
  split at h
  · rename_i t ht
    cases h
    rw [text, Text.utf8_of_ofUtf8? ht]
    exact data_of_toData hs hd
  · cases h

end LedgerClient.Rlp
