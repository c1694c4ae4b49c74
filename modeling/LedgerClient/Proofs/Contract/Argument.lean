import LedgerClient.Proofs.Address
import LedgerClient.Proofs.Param.Item
import LedgerClient.Proofs.Param.List
import LedgerClient.Proofs.Text.Decimal
/-!
# Arguments, sent and read

An argument is sent as bytes that depend on its kind, and read back from them. Between the two
stands the text item, which is hexadecimal for every kind, so nothing in a text can be taken for
something else.

* `ParamValue.IsAmount`    the texts of amounts;
* `ParamValue.bigUint?_eq_some_iff`   what is read from a text;
* `ParamValue.SentAs`      the bytes of an argument;
* `ParamValue.canonical`   the argument as it is read back: a number loses leading zeros;
* `ParamValue.readBackAs_canonical`   so it becomes the decimal text of what it denotes;
* `ParamValue.sentAs_of_toItem`    what is written is sent as such bytes;
* `ParamList.addresses_eq_ok_iff`  which addresses are cut out of a field;
* `DecodedCall.value_eq_canonical_iff`   an argument is read back from the bytes it was sent as,
  an address list only when its addresses have the width at which they are cut apart.
-/

namespace LedgerClient

variable {P : Primitives} {c : Chain}

namespace ParamValue

/-! ## amounts -/

/-- `s` is one or more decimal digits that denote `n`, below `2 ^ 256` -/
structure IsAmount (s : String) (n : Nat) : Prop where
  nonempty : s ≠ ""
  digits : Text.DecimalText s.toList n
  bound : n < 2 ^ 256

variable {s : String} {n : Nat}

/-- amounts are read, and the empty text is read as zero -/
theorem bigUint?_eq_some_iff : bigUint? s = some n ↔ s = "" ∧ n = 0 ∨ IsAmount s n := by
  have hread : bigUint? s = some n ↔ Text.DecimalText s.toList n ∧ n < 2 ^ 256 :=
    Text.bind_bounded?_eq_some_iff.trans (and_congr_left fun _ => Text.value_eq_some_iff)
  rw [hread]
  by_cases hs : s = ""
  · subst hs
    show Text.DecimalText [] n ∧ _ ↔ _
    rw [Text.decimalText_nil_iff]
    constructor
    · rintro ⟨rfl, -⟩
      exact .inl ⟨rfl, rfl⟩
    · rintro (⟨-, rfl⟩ | h)
      · exact ⟨rfl, by decide⟩
      · exact absurd rfl h.nonempty
  · rw [or_iff_right fun h => hs h.1]
    exact ⟨fun h => ⟨hs, h.1, h.2⟩, fun h => ⟨h.digits, h.bound⟩⟩

/-- an amount has the number of its digits, which is zero for no digits at all -/
theorem decimalText_of_amount {s : String} (h : s = "" ∧ n = 0 ∨ IsAmount s n) :
    Text.DecimalText s.toList n ∧ n < 2 ^ 256 := by
  rcases h with ⟨rfl, rfl⟩ | h
  · exact ⟨Text.decimalText_nil_iff.2 rfl, by decide⟩
  · exact ⟨h.digits, h.bound⟩

/-! ## bytes -/

/-- the bytes that stand for an argument -/
inductive SentAs (P : Primitives) (c : Chain) : ParamValue → Bytes → Prop
  | str (s : String) : SentAs P c (.str s) (Text.utf8 s)
  | address {a : Address} :
    Address.validate P c.id a.text = .ok () → SentAs P c (.address a) (Text.utf8 a.text)
  | addressList {as : List Address} {bs : List Bytes} :
    List.Forall₂ (fun a b => Address.body P c.id a = .ok b) as bs →
      SentAs P c (.addressList as) bs.flatten
  | bigUint {s : String} {n : Nat} :
    s = "" ∧ n = 0 ∨ IsAmount s n → SentAs P c (.bigUint s) (Bytes.ofNat n)
  | uint64 (n : UInt64) : SentAs P c (.uint64 n) (Bytes.fixed 8 n.toNat)
  | uint32 (n : UInt32) : SentAs P c (.uint32 n) (Bytes.fixed 4 n.toNat)
  | bool (b : Bool) : SentAs P c (.bool b) [if b then 1 else 0]
  | bytes (b : Bytes) : SentAs P c (.bytes b) b

/-- the argument as it is read back: the decimal text of a number without leading zeros -/
def canonical : ParamValue → ParamValue
  | .bigUint s => .bigUint (String.ofList (Text.withoutZeros s.toList))
  | v => v

/-- so a number is read back as its own text -/
theorem canonical_bigUint {s : String} {n : Nat} (h : s = "" ∧ n = 0 ∨ IsAmount s n) :
    canonical (.bigUint s) = .bigUint (toString n) := by
  have htext : (toString n).toList = Nat.toDigits 10 n := Nat.toList_repr
  show ParamValue.bigUint (String.ofList (Text.withoutZeros s.toList)) = _
  rw [Text.withoutZeros_eq_toDigits (decimalText_of_amount h).1, ← htext, String.ofList_toList]

/-- `w` is what is read back for `v`: the decimal text of its number for an amount, `v` itself for
every other argument -/
inductive ReadBackAs : (v w : ParamValue) → Prop
  | amount {s : String} {n : Nat} :
    s = "" ∧ n = 0 ∨ IsAmount s n → ReadBackAs (.bigUint s) (.bigUint (toString n))
  | same {v : ParamValue} : v.kind ≠ .bigUint → ReadBackAs v v

theorem readBackAs_canonical {v : ParamValue} {b : Bytes} (h : SentAs P c v b) :
    ReadBackAs v v.canonical := by
  cases h with
  | bigUint hn =>
    rw [canonical_bigUint hn]
    exact .amount hn
  | _ => exact .same nofun

/-- every address of a list can be packed -/
def Packable (P : Primitives) (c : Chain) : ParamValue → Prop
  | .addressList as => ∀ a ∈ as, Address.Packable P c.id a
  | _ => True

theorem bodies_of_bodyItems {as : List Address} {items : List String}
    (h : bodyItems P c as = .ok items) :
    ∃ bs, List.Forall₂ (fun a b => Address.body P c.id a = .ok b) as bs ∧
      items = bs.map hexItem := by
  induction as generalizing items with
  | nil =>
    obtain rfl := Except.ok.inj h
    exact ⟨[], .nil, rfl⟩
  | cons a as ih =>
    rw [bodyItems] at h
    split at h
    · cases h
    · rename_i b hb
      obtain ⟨rest, hrest, h⟩ := bind_eq_ok_iff.1 h
      obtain rfl := pure_eq_ok_iff.1 h
      obtain ⟨bs, hbs, rfl⟩ := ih hrest
      exact ⟨b :: bs, .cons hb hbs, rfl⟩

/-- an argument that is written is sent as bytes that stand for it -/
theorem sentAs_of_toItem {v : ParamValue} {index : Nat} {item : String}
    (h : v.toItem P c index = .ok item) :
    ∃ b, SentAs P c v b ∧ ∀ n, Param.itemBytes n item = .ok b := by
  -- every kind but a list of several addresses is one hexadecimal piece
  have hex : ∀ {b : Bytes}, SentAs P c v b →
      (Except.ok (hexItem b) : Except CallError String) = .ok item →
      ∃ b, SentAs P c v b ∧ ∀ n, Param.itemBytes n item = .ok b := by
    intro b hb e
    obtain rfl := Except.ok.inj e
    exact ⟨b, hb, fun n => Param.itemBytes_hex n b⟩
  cases v with
  | str s => exact hex (.str s) h
  | address a =>
    rw [toItem] at h
    split at h
    · rename_i hv
      exact hex (.address hv) h
    · cases h
  | addressList as =>
    cases as with
    | nil => exact hex (.addressList .nil) h
    | cons a as =>
      obtain ⟨items, hitems, rfl⟩ := map_eq_ok_iff.1 h
      obtain ⟨bs, hbs, rfl⟩ := bodies_of_bodyItems hitems
      refine ⟨bs.flatten, .addressList hbs, fun n => Param.itemBytes_hexes n ?_⟩
      rintro rfl
      cases hbs
  | bigUint s =>
    rw [toItem] at h
    split at h
    · rename_i n hn
      exact hex (.bigUint (bigUint?_eq_some_iff.1 hn)) h
    · cases h
  | uint64 n => exact hex (.uint64 n) h
  | uint32 n => exact hex (.uint32 n) h
  | bool b => exact hex (.bool b) h
  | bytes b => exact hex (.bytes b) h

end ParamValue

/-! ## fields of a parameter list -/

namespace ParamList

variable {l : ParamList} {i : Nat} {b : Bytes}

theorem require_eq_ok_iff {n : Nat} : l.require n = .ok () ↔ n ≤ l.items.length := by
  unfold require
  split
  · rename_i h
    exact ⟨nofun, fun hn => absurd h (Nat.not_lt.2 hn)⟩
  · rename_i h
    exact iff_of_true rfl (Nat.le_of_not_lt h)

theorem bytes_eq_ok_iff : l.bytes i = .ok b ↔ l.items[i]? = some b := by
  unfold bytes
  split
  · rename_i b' hb
    rw [hb, Except.ok.injEq, Option.some.injEq]
  · rename_i hb
    rw [hb]
    exact ⟨nofun, nofun⟩

theorem text_eq {s : String} (h : l.items[i]? = some (Text.utf8 s)) : l.text i = .ok s := by
  rw [text, bytes_eq_ok_iff.2 h, ok_bind, Text.ofUtf8?_utf8]
  rfl

theorem narrow_eq {max : Nat} (h : l.items[i]? = some b) (hb : b.length ≤ max) :
    l.narrow i max = .ok b := by
  rw [narrow, bytes_eq_ok_iff.2 h, ok_bind, if_neg (Nat.not_lt.2 hb)]
  rfl

theorem bigUint_eq {n : Nat} (h : l.items[i]? = some (Bytes.ofNat n)) (hn : n < 256 ^ 32) :
    l.bigUint i = .ok (toString n) := by
  rw [bigUint, narrow_eq h ((Bytes.length_ofNat_le_iff 32 n).2 hn), ok_bind, Bytes.toNat_ofNat]
  rfl

theorem uint_eq {w : Nat} (h : l.items[i]? = some b) (hb : b.length ≤ min w 8) :
    l.uint i w = .ok (Bytes.toNat b) := by
  rw [uint, narrow_eq h hb, ok_bind, Word.ofBytes, List.take_of_length_le (by omega)]
  rfl

theorem uint_fixed {w n : Nat} (h : l.items[i]? = some (Bytes.fixed w n)) (hw : w ≤ 8)
    (hn : n < 256 ^ w) : l.uint i w = .ok n := by
  have hl : (Bytes.fixed w n).length ≤ min w 8 := by
    rw [Bytes.length_fixed, Nat.min_eq_left hw]
  rw [uint_eq h hl, Bytes.toNat_fixed, Nat.mod_eq_of_lt hn]

theorem bool_eq {x : Bool} (h : l.items[i]? = some [if x then 1 else 0]) : l.bool i = .ok x := by
  rw [bool, uint_eq h (by rw [List.length_singleton]; decide), ok_bind]
  cases x <;> rfl

/-- the addresses of a field are its pieces, if it has no bytes left over -/
theorem addresses_eq_ok_iff {chainId : String} {as : List Address} :
    l.addresses i chainId = .ok as ↔ ∃ b, l.items[i]? = some b ∧
      b.length % Address.packedLength = 0 ∧
        as = (Bytes.pieces Address.packedLength b).map (Address.ofPacked chainId) := by
  rw [addresses, bind_eq_ok_iff]
  refine exists_congr fun b => and_congr bytes_eq_ok_iff ?_
  by_cases hm : b.length % Address.packedLength = 0
  · rw [if_neg (not_not_intro hm), pure_eq_ok_iff, and_iff_right hm, eq_comm]
  · rw [if_pos hm]
    exact ⟨nofun, fun h => absurd h.1 hm⟩

end ParamList

namespace DecodedCall

open ParamValue

variable {l : ParamList} {i : Nat} {v : ParamValue}

theorem ofParams_eq_ok_iff {α : Type} {x : Except ParamError α} {a : α} :
    ofParams x = .ok a ↔ x = .ok a := by
  cases x with
  | error _ => exact ⟨nofun, nofun⟩
  | ok _ => rw [ofParams, Except.ok.injEq, Except.ok.injEq]

/-- a single address is checked when it is read -/
theorem value_address_eq_ok_iff : value P c l i .address = .ok v ↔
    ∃ s, l.text i = .ok s ∧ Address.validate P c.id s = .ok () ∧ v = .address ⟨s⟩ := by
  rw [value, bind_eq_ok_iff]
  refine exists_congr fun s => and_congr ofParams_eq_ok_iff ?_
  split
  · rename_i a ha
    obtain ⟨hs, rfl⟩ := Address.parse_eq_ok_iff.1 ha
    rw [pure_eq_ok_iff, and_iff_right hs, eq_comm]
  · rename_i e he
    refine ⟨nofun, fun h => ?_⟩
    cases he.symm.trans (Address.parse_of_validate h.1)

/-- what is read has the kind it was read as -/
theorem kind_of_value {k : ParamKind} (h : value P c l i k = .ok v) : v.kind = k := by
  -- every kind but an address is one reader of fields
  have mapped : ∀ {α : Type} {x : Except ParamError α} {f : α → ParamValue},
      (∀ a, (f a).kind = k) → ofParams (x.map f) = .ok v → v.kind = k := by
    intro α x f hf e
    obtain ⟨a, -, rfl⟩ := map_eq_ok_iff.1 (ofParams_eq_ok_iff.1 e)
    exact hf a
  cases k with
  | address =>
    obtain ⟨s, -, -, rfl⟩ := value_address_eq_ok_iff.1 h
    rfl
  | str => exact mapped (fun _ => rfl) h
  | addressList => exact mapped (fun _ => rfl) h
  | bigUint => exact mapped (fun _ => rfl) h
  | uint64 => exact mapped (fun _ => rfl) h
  | uint32 => exact mapped (fun _ => rfl) h
  | bool => exact mapped (fun _ => rfl) h
  | bytes => exact mapped (fun _ => rfl) h

theorem value_addressList_eq_ok_iff : value P c l i .addressList = .ok v ↔
    ∃ b, l.items[i]? = some b ∧ b.length % Address.packedLength = 0 ∧
      v = .addressList ((Bytes.pieces Address.packedLength b).map (Address.ofPacked c.id)) := by
  rw [value, ofParams_eq_ok_iff, map_eq_ok_iff]
  constructor
  · rintro ⟨as, has, rfl⟩
    obtain ⟨b, hb, hm, rfl⟩ := ParamList.addresses_eq_ok_iff.1 has
    exact ⟨b, hb, hm, rfl⟩
  · rintro ⟨b, hb, hm, rfl⟩
    exact ⟨_, ParamList.addresses_eq_ok_iff.2 ⟨b, hb, hm, rfl⟩, rfl⟩

/-- the bytes of a list are cut apart at the same places only if all have the width of a piece -/
theorem value_addressList_iff {as : List Address} {bs : List Bytes}
    (h : List.Forall₂ (fun a b => Address.body P c.id a = .ok b) as bs)
    (hi : l.items[i]? = some bs.flatten) :
    value P c l i .addressList = .ok (.addressList as) ↔ Packable P c (.addressList as) := by
  obtain ⟨hc, rfl⟩ := Address.bodies_iff.1 h
  have hpackable : Packable P c (.addressList (bs.map (Address.ofPacked c.id))) ↔
      ∀ b ∈ bs, b.length = Address.packedLength :=
    List.forall_mem_map.trans
      (forall₂_congr fun b hb => Address.packable_ofPacked_iff (hc b hb))
  have hinj : Function.Injective (Address.ofPacked c.id) := fun _ _ => Address.ofPacked_inj
  rw [value_addressList_eq_ok_iff, hpackable, ← Bytes.pieces_flatten_iff (by decide)]
  constructor
  · rintro ⟨b, hb, hm, e⟩
    obtain rfl : bs.flatten = b := Option.some.inj (hi.symm.trans hb)
    exact ⟨hm, (List.map_injective_iff.2 hinj (ParamValue.addressList.inj e)).symm⟩
  · rintro ⟨hm, hp⟩
    exact ⟨bs.flatten, hi, hm, by rw [hp]⟩

/-- an argument is read back from the bytes that stand for it, if they are cut where they should -/
theorem value_eq_canonical_iff {b : Bytes} (h : SentAs P c v b) (hi : l.items[i]? = some b) :
    value P c l i v.kind = .ok v.canonical ↔ v.Packable P c := by
  cases h with
  | str s =>
    refine iff_of_true ?_ trivial
    show ofParams ((l.text i).map _) = _
    rw [ParamList.text_eq hi]
    rfl
  | @address a ha =>
    refine iff_of_true ?_ trivial
    show (ofParams (l.text i) >>= _) = _
    rw [ParamList.text_eq hi, ofParams, ok_bind, Address.parse_of_validate ha]
    rfl
  | @addressList as bs hbs => exact value_addressList_iff hbs hi
  | @bigUint s n hn =>
    refine iff_of_true ?_ trivial
    show ofParams ((l.bigUint i).map _) = _
    rw [canonical_bigUint hn, ParamList.bigUint_eq hi (decimalText_of_amount hn).2]
    rfl
  | uint64 n =>
    refine iff_of_true ?_ trivial
    show ofParams ((l.uint i 8).map _) = _
    rw [ParamList.uint_fixed hi (by omega) n.toNat_lt]
    show Except.ok (ParamValue.uint64 (UInt64.ofNat n.toNat)) = _
    rw [UInt64.ofNat_toNat]
    rfl
  | uint32 n =>
    refine iff_of_true ?_ trivial
    show ofParams ((l.uint i 4).map _) = _
    rw [ParamList.uint_fixed hi (by omega) n.toNat_lt]
    show Except.ok (ParamValue.uint32 (UInt32.ofNat n.toNat)) = _
    rw [UInt32.ofNat_toNat]
    rfl
  | bool x =>
    refine iff_of_true ?_ trivial
    show ofParams ((l.bool i).map _) = _
    rw [ParamList.bool_eq hi]
    rfl
  | bytes b =>
    refine iff_of_true ?_ trivial
    show ofParams ((l.bytes i).map _) = _
    rw [ParamList.bytes_eq_ok_iff.2 hi]
    rfl

end DecodedCall

end LedgerClient
