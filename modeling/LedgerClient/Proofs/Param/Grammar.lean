import LedgerClient.Proofs.Param.List
import LedgerClient.Proofs.Text.HexDigits
/-!
# Which items stand for bytes

An item that does not start with `0x` stands for its own bytes, whatever it is. One that does is a
row of hexadecimal pieces between commas, and stands for bytes when each piece does; a text without
a comma is one piece. Otherwise its first faulty piece is reported, under the item's place.

* `Param.InOrder item`       every piece of an item that starts with `0x` is pairs of digits;
* `Param.Stands item b`      the item stands for the bytes `b`;
* `Param.FaultyItem item e`  the item's first faulty piece has the fault `e`;
* `Param.exists_stands_iff`  the items in order are those that stand for bytes;
* `Param.itemsBytes_eq_ok_iff_stands`, `itemsBytes_eq_error_iff`   rows of items: the bytes of each,
  or the first faulty one.
-/

namespace LedgerClient.Param

open Text

variable {index : Nat} {item : String} {piece : List Char} {b : Bytes} {e : ItemError}

/-- every piece of an item that starts with `0x` is an even number of digits, `0x` in front or not -/
def InOrder (item : String) : Prop :=
  hexLead <+: item.toList →
    ∀ piece ∈ fields ',' item.toList, ∃ vs, HexText piece vs ∧ vs.length % 2 = 0

/-- an item that starts with `0x` stands for the bytes of its pieces, any other for its own -/
inductive Stands : String → Bytes → Prop
  | plain {item : String} : ¬ hexLead <+: item.toList → Stands item (utf8 item)
  | hex {item : String} {bs : List Bytes} :
    hexLead <+: item.toList →
    List.Forall₂ (fun piece b => HexText piece (nibbles b)) (fields ',' item.toList) bs →
    Stands item bs.flatten

/-- what is wrong with an item: the fault of its first piece that is not pairs of digits -/
def FaultyItem (item : String) (fault : Hex.Error) : Prop :=
  hexLead <+: item.toList ∧ ∃ pre piece post, fields ',' item.toList = pre ++ piece :: post ∧
    (∀ p ∈ pre, ∃ b, HexText p (nibbles b)) ∧
    Hex.Faulty (String.ofList (dropLead hexLead piece)) fault

/-! ## pieces -/

theorem exists_hexText_nibbles_iff :
    (∃ b, HexText piece (nibbles b)) ↔ ∃ vs, HexText piece vs ∧ vs.length % 2 = 0 := by
  constructor
  · rintro ⟨b, h⟩
    exact ⟨nibbles b, h, by rw [length_nibbles, Nat.mul_mod_right]⟩
  · rintro ⟨vs, h, heven⟩
    obtain ⟨b, rfl⟩ := exists_nibbles (lt_of_forall₂_isHexDigit (hexText_iff.1 h)) heven
    exact ⟨b, h⟩

theorem pieceBytes_eq_ok_iff : pieceBytes index piece = .ok b ↔ HexText piece (nibbles b) := by
  have hdecode := @Hex.decode_eq_ok_iff (String.ofList (dropLead hexLead piece)) b
  rw [String.toList_ofList] at hdecode
  refine Iff.trans ?_ (hdecode.trans hexText_iff.symm)
  unfold pieceBytes
  cases Hex.decode (String.ofList (dropLead hexLead piece)) <;> simp

theorem pieceBytes_eq_error_iff : pieceBytes index piece = .error e ↔
    ∃ fault, Hex.Faulty (String.ofList (dropLead hexLead piece)) fault ∧
      e = .invalidHex index fault := by
  unfold pieceBytes
  simp only [← Hex.decode_eq_error_iff]
  cases Hex.decode (String.ofList (dropLead hexLead piece)) <;> simp [eq_comm]

theorem piecesBytes_eq_ok_iff {ps : List (List Char)} : piecesBytes index ps = .ok b ↔
    ∃ bs, List.Forall₂ (fun p b => HexText p (nibbles b)) ps bs ∧ bs.flatten = b := by
  induction ps generalizing b with
  | nil =>
    constructor
    · intro h
      exact ⟨[], .nil, Except.ok.inj h⟩
    · rintro ⟨bs, hbs, rfl⟩
      obtain rfl := List.forall₂_nil_left_iff.1 hbs
      rfl
  | cons p ps ih =>
    rw [piecesBytes, bind_eq_ok_iff]
    constructor
    · rintro ⟨x, hx, h⟩
      obtain ⟨rest, hrest, h⟩ := bind_eq_ok_iff.1 h
      obtain rfl := pure_eq_ok_iff.1 h
      obtain ⟨bs, hbs, rfl⟩ := ih.1 hrest
      exact ⟨x :: bs, .cons (pieceBytes_eq_ok_iff.1 hx) hbs, List.flatten_cons⟩
    · rintro ⟨_, hbs, rfl⟩
      obtain ⟨x, bs, hx, hbs', rfl⟩ := List.forall₂_cons_left_iff.1 hbs
      refine ⟨x, pieceBytes_eq_ok_iff.2 hx, bind_eq_ok_iff.2 ⟨bs.flatten, ih.2 ⟨bs, hbs', rfl⟩, ?_⟩⟩
      rw [List.flatten_cons]
      rfl

theorem piecesBytes_of_faulty {pre post : List (List Char)} {fault : Hex.Error}
    (hpre : ∀ p ∈ pre, ∃ b, HexText p (nibbles b))
    (h : Hex.Faulty (String.ofList (dropLead hexLead piece)) fault) :
    piecesBytes index (pre ++ piece :: post) = .error (.invalidHex index fault) := by
  induction pre with
  | nil =>
    rw [List.nil_append, piecesBytes, pieceBytes_eq_error_iff.2 ⟨fault, h, rfl⟩]
    rfl
  | cons p pre ih =>
    obtain ⟨x, hx⟩ := hpre p List.mem_cons_self
    rw [List.cons_append, piecesBytes, pieceBytes_eq_ok_iff.2 hx, ok_bind,
      ih fun q hq => hpre q (List.mem_cons_of_mem p hq)]
    rfl

/-! ## items -/

theorem hexLead_prefix_iff : hexLead <+: item.toList ↔ ∃ r, dropLead? hexLead item.toList = some r := by
  constructor
  · rintro ⟨r, hr⟩
    exact ⟨r, dropLead?_eq_some_iff.2 hr.symm⟩
  · rintro ⟨r, hr⟩
    exact ⟨r, (dropLead?_eq_some_iff.1 hr).symm⟩

theorem itemBytes_plain (index : Nat) (h : ¬ hexLead <+: item.toList) :
    itemBytes index item = .ok (utf8 item) := by
  have hnone : dropLead? hexLead item.toList = none :=
    Option.eq_none_iff_forall_ne_some.2 fun r hr => h (hexLead_prefix_iff.2 ⟨r, hr⟩)
  rw [itemBytes, hnone]

/-- without a comma the item is its own only piece -/
theorem itemBytes_of_hexLead (index : Nat) (h : hexLead <+: item.toList) :
    itemBytes index item = piecesBytes index (fields ',' item.toList) := by
  obtain ⟨r, hr⟩ := hexLead_prefix_iff.1 h
  rw [itemBytes, hr]
  dsimp only
  split
  · rfl
  · rename_i hcomma
    rw [fields_of_not_mem hcomma, piecesBytes, pieceBytes, dropLead, hr, Option.getD_some]
    cases Hex.decode (String.ofList r) with
    | error _ => rfl
    | ok b =>
      show Except.ok b = Except.ok (b ++ [])
      rw [List.append_nil]

theorem exists_stands_iff : (∃ b, Stands item b) ↔ InOrder item := by
  unfold InOrder
  simp only [← exists_hexText_nibbles_iff]
  constructor
  · rintro ⟨b, h⟩ hlead
    cases h with
    | plain hnot => exact absurd hlead hnot
    | hex _ hbs => exact exists_forall₂_iff.1 ⟨_, hbs⟩
  · intro h
    by_cases hlead : hexLead <+: item.toList
    · obtain ⟨bs, hbs⟩ := exists_forall₂_iff.2 (h hlead)
      exact ⟨bs.flatten, .hex hlead hbs⟩
    · exact ⟨_, .plain hlead⟩

theorem itemBytes_eq_ok_iff : itemBytes index item = .ok b ↔ Stands item b := by
  by_cases hlead : hexLead <+: item.toList
  · rw [itemBytes_of_hexLead index hlead, piecesBytes_eq_ok_iff]
    constructor
    · rintro ⟨bs, hbs, rfl⟩
      exact .hex hlead hbs
    · intro h
      cases h with
      | plain hnot => exact absurd hlead hnot
      | hex _ hbs => exact ⟨_, hbs, rfl⟩
  · rw [itemBytes_plain index hlead]
    constructor
    · intro h
      obtain rfl := Except.ok.inj h
      exact .plain hlead
    · intro h
      cases h with
      | plain _ => rfl
      | hex h _ => exact absurd h hlead

theorem inOrder_or_faulty (item : String) : InOrder item ∨ ∃ fault, FaultyItem item fault := by
  by_cases hlead : hexLead <+: item.toList
  · by_cases h : ∀ p ∈ fields ',' item.toList, ∃ b, HexText p (nibbles b)
    · exact .inl fun _ p hp => exists_hexText_nibbles_iff.1 (h p hp)
    · obtain ⟨pre, piece, post, hps, hpre, hbad⟩ := exists_first h
      refine .inr ?_
      rcases Hex.digits_or_faulty (String.ofList (dropLead hexLead piece)) with ⟨b, hb⟩ | ⟨fault, hf⟩
      · rw [String.toList_ofList] at hb
        exact absurd ⟨b, hexText_iff.2 hb⟩ hbad
      · exact ⟨fault, hlead, pre, piece, post, hps, hpre, hf⟩
  · exact .inl fun h => absurd h hlead

theorem itemBytes_of_faulty (index : Nat) {fault : Hex.Error} (h : FaultyItem item fault) :
    itemBytes index item = .error (.invalidHex index fault) := by
  obtain ⟨hlead, pre, piece, post, hps, hpre, hf⟩ := h
  rw [itemBytes_of_hexLead index hlead, hps, piecesBytes_of_faulty hpre hf]

theorem itemBytes_eq_error_iff : itemBytes index item = .error e ↔
    ∃ fault, FaultyItem item fault ∧ e = .invalidHex index fault := by
  constructor
  · intro h
    rcases inOrder_or_faulty item with hin | ⟨fault, hf⟩
    · obtain ⟨b, hb⟩ := exists_stands_iff.2 hin
      cases (itemBytes_eq_ok_iff.2 hb).symm.trans h
    · exact ⟨fault, hf, (Except.error.inj ((itemBytes_of_faulty index hf).symm.trans h)).symm⟩
  · rintro ⟨fault, hf, rfl⟩
    exact itemBytes_of_faulty index hf

/-! ## rows of items -/

theorem itemsBytes_eq_ok_iff_stands {items : List String} {bs : List Bytes} :
    itemsBytes items = .ok bs ↔ List.Forall₂ Stands items bs := by
  rw [itemsBytes, itemsBytesFrom_eq_ok_iff, List.forall₂_iff_get]
  refine and_congr eq_comm ⟨fun h i hi hb => ?_, fun h i item b hi hb => ?_⟩
  · exact itemBytes_eq_ok_iff.1
      (h i _ _ (List.getElem?_eq_getElem hi) (List.getElem?_eq_getElem hb))
  · obtain ⟨hi', rfl⟩ := List.getElem?_eq_some_iff.1 hi
    obtain ⟨hb', rfl⟩ := List.getElem?_eq_some_iff.1 hb
    exact itemBytes_eq_ok_iff.2 (h i hi' hb')

theorem itemsBytes_eq_error_iff {items : List String} : itemsBytes items = .error e ↔
    ∃ pre item post fault, items = pre ++ item :: post ∧ (∀ x ∈ pre, InOrder x) ∧
      FaultyItem item fault ∧ e = .invalidHex pre.length fault := by
  have hstop : itemsBytesFrom 0 items = .error e ↔ _ :=
    numbered_eq_error_iff (F := itemsBytesFrom) (f := itemBytes) (fun _ => rfl) fun _ _ _ => rfl
  refine hstop.trans ?_
  constructor
  · rintro ⟨pre, item, post, hitems, hpre, h⟩
    obtain ⟨fault, hf, rfl⟩ := itemBytes_eq_error_iff.1 h
    refine ⟨pre, item, post, fault, hitems, fun x hx => ?_, hf, by rw [Nat.zero_add]⟩
    obtain ⟨i, hi⟩ := List.mem_iff_getElem?.1 hx
    obtain ⟨b, hb⟩ := hpre i x hi
    exact exists_stands_iff.1 ⟨b, itemBytes_eq_ok_iff.1 hb⟩
  · rintro ⟨pre, item, post, fault, hitems, hpre, hf, rfl⟩
    refine ⟨pre, item, post, hitems, fun i x hi => ?_, ?_⟩
    · obtain ⟨b, hb⟩ := exists_stands_iff.2 (hpre x (List.mem_of_getElem? hi))
      exact ⟨b, itemBytes_eq_ok_iff.2 hb⟩
    · rw [Nat.zero_add]
      exact itemBytes_of_faulty _ hf

end LedgerClient.Param
