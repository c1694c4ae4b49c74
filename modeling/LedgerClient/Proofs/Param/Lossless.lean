import LedgerClient.Proofs.Param.Grammar
import LedgerClient.Proofs.Param.Number
/-!
# Parameter lists lose nothing

Items are written one after the other and read back as so many fields; neither a comma inside an
item nor a header around one moves a byte from one field to another. What can be cut apart within a
field is cut apart in order: hexadecimal pieces at commas, address bodies every 24 bytes.

* `Param.encode_written`            a row of items, or the first of them that stands for no bytes;
* `Param.itemBytes_joined`          pieces between commas are the bytes of each, in order;
* `Param.itemBytes_hexLead`         one piece is read the same way, split at commas or not;
* `ParamList.addresses_of_pieces`   bodies in a row are the address of each, in order;
* `ParamList.addresses_eq_error_iff`   and what a field is refused for;
* `Param.nothing_lost`              all of these.
-/

namespace LedgerClient

open Text

namespace Param

variable {index : Nat} {items : List String}

/-! ## rows of items -/

/-- what is made of a row of items: a list that is read back as the bytes of each, in order, or the
error of the first item that has one -/
inductive Written (items : List String) : Except ItemError Bytes → Prop
  | list {bs : List Bytes} {b : Bytes} :
    bs.length = items.length →
    (∀ i item x, items[i]? = some item → bs[i]? = some x → itemBytes i item = .ok x) →
    (b.length < 2 ^ 64 → ParamList.decode b = .ok ⟨bs⟩) → Written items (.ok b)
  | refusal {j : Nat} {item : String} {e : ItemError} :
    items[j]? = some item → itemBytes j item = .error e →
    (∀ i, i < j → ∀ item, items[i]? = some item → ∃ x, itemBytes i item = .ok x) →
    Written items (.error e)

theorem encode_written (items : List String) : Written items (encode items) := by
  unfold encode itemsBytes
  cases h : itemsBytesFrom 0 items with
  | error e =>
    obtain ⟨j, item, hplace, hbefore, hitem⟩ :=
      (numbered_eq_error_iff_place (F := itemsBytesFrom) (f := itemBytes) (fun _ => rfl)
        fun _ _ _ => rfl).1 h
    simp only [Nat.zero_add] at hbefore hitem
    exact .refusal hplace hitem hbefore
  | ok bs =>
    obtain ⟨hlength, hbytes⟩ := itemsBytesFrom_eq_ok_iff.1 h
    refine .list hlength (fun i item x hitem hx => ?_) ParamList.decode_listOf
    rw [← Nat.zero_add i]
    exact hbytes i item x hitem hx

/-! ## hexadecimal pieces -/

theorem not_isHexDigit_comma (v : Nat) : ¬ IsHexDigit ',' v := by
  have hcomma : digit? 16 ',' = none := by decide
  rw [← digit?_eq_some_iff, hcomma]
  exact nofun

theorem comma_not_mem_of_digits {cs : List Char} {vs : List Nat}
    (h : List.Forall₂ IsHexDigit cs vs) : ',' ∉ cs := by
  intro hmem
  obtain ⟨v, hv⟩ := exists_forall₂_iff.1 ⟨vs, h⟩ ',' hmem
  exact not_isHexDigit_comma v hv

theorem comma_not_mem_of_hexText {cs : List Char} {vs : List Nat} (h : HexText cs vs) :
    ',' ∉ cs := by
  obtain ⟨ds, rfl | rfl, hds⟩ := h
  · exact comma_not_mem_of_digits hds
  · exact comma_not_mem_hexLead_append (comma_not_mem_of_digits hds)

theorem hexLead_prefix_joined (ds : List Char) (rest : List (List Char)) :
    hexLead <+: joined ',' ((hexLead ++ ds) :: rest) := by
  cases rest with
  | nil => exact List.prefix_append hexLead ds
  | cons p rest =>
    show hexLead <+: (hexLead ++ ds) ++ ',' :: joined ',' (p :: rest)
    rw [List.append_assoc]
    exact List.prefix_append hexLead _

theorem itemBytes_ofList (index : Nat) {cs : List Char} (h : hexLead <+: cs) :
    itemBytes index (String.ofList cs) = piecesBytes index (fields ',' cs) := by
  have hlead : hexLead <+: (String.ofList cs).toList := by rwa [String.toList_ofList]
  rw [itemBytes_of_hexLead index hlead, String.toList_ofList]

/-- only the first piece must have its lead, as the item is known by it -/
theorem itemBytes_joined {b : Bytes} {ds : List Char} {bs : List Bytes} {rest : List (List Char)}
    (hb : List.Forall₂ IsHexDigit ds (nibbles b))
    (hrest : List.Forall₂ (fun p b => HexText p (nibbles b)) rest bs) :
    itemBytes index (String.ofList (joined ',' ((hexLead ++ ds) :: rest))) =
      .ok (b :: bs).flatten := by
  have hpieces : List.Forall₂ (fun p b => HexText p (nibbles b))
      ((hexLead ++ ds) :: rest) (b :: bs) := .cons ⟨ds, .inr rfl, hb⟩ hrest
  have hcomma : ∀ p ∈ (hexLead ++ ds) :: rest, ',' ∉ p := by
    intro p hp
    obtain ⟨x, hx⟩ := exists_forall₂_iff.1 ⟨_, hpieces⟩ p hp
    exact comma_not_mem_of_hexText hx
  rw [itemBytes_ofList index (hexLead_prefix_joined ds rest),
    fields_joined (List.cons_ne_nil _ _) hcomma]
  exact piecesBytes_eq_ok_iff.2 ⟨_, hpieces, rfl⟩

/-- without a comma it makes no difference whether the item is split -/
theorem itemBytes_hexLead {body : List Char} (h : ',' ∉ body) :
    itemBytes index (String.ofList (hexLead ++ body)) =
        (Hex.decode (String.ofList body)).mapError (.invalidHex index) ∧
      itemBytes index (String.ofList (hexLead ++ body)) =
        piecesBytes index (fields ',' (hexLead ++ body)) := by
  refine ⟨?_, itemBytes_ofList index (List.prefix_append hexLead body)⟩
  unfold itemBytes
  rw [String.toList_ofList, dropLead?_append]
  dsimp only
  rw [if_neg (comma_not_mem_hexLead_append h)]
  cases Hex.decode (String.ofList body) <;> rfl

end Param

/-! ## packed addresses -/

namespace ParamList

variable {l : ParamList} {i : Nat} {chainId : String}

theorem addresses_of_pieces {bs : List Bytes} (hi : l.items[i]? = some bs.flatten)
    (h : ∀ b ∈ bs, b.length = 24) :
    l.addresses i chainId = .ok (bs.map fun b => ⟨chainId ++ Base58.encode b⟩) := by
  obtain ⟨hwidth, hpieces⟩ := (Bytes.pieces_flatten_iff (by decide)).2 h
  refine addresses_eq_ok_iff.2 ⟨bs.flatten, hi, hwidth, ?_⟩
  show _ = (Bytes.pieces 24 bs.flatten).map _
  rw [hpieces]
  rfl

theorem addresses_eq_error_iff {e : ParamError} : l.addresses i chainId = .error e ↔
    l.items.length ≤ i ∧ e = .tooFew (i + 1) l.items.length ∨
      ∃ b, l.items[i]? = some b ∧ ¬ 24 ∣ b.length ∧ e = .misaligned i b.length 24 := by
  rw [addresses, bind_eq_error_iff]
  refine or_congr bytes_eq_error_iff (exists_congr fun b => and_congr bytes_eq_ok_iff ?_)
  rw [Nat.dvd_iff_mod_eq_zero]
  by_cases hwidth : b.length % Address.packedLength = 0
  · rw [if_neg (not_not_intro hwidth)]
    refine ⟨fun h => ?_, fun h => absurd hwidth h.1⟩
    cases h
  · rw [if_pos hwidth, Except.error.injEq, eq_comm]
    exact (and_iff_right hwidth).symm

end ParamList

/-! ## the whole -/

namespace Param

/-- rows of items, pieces of an item and addresses of a field come out as they went in: all of them,
in order and nothing else -/
theorem nothing_lost :
    (∀ items, Written items (encode items)) ∧
    (∀ (index : Nat) (b : Bytes) (bs : List Bytes) (ds : List Char) (rest : List (List Char)),
      List.Forall₂ IsHexDigit ds (nibbles b) →
      List.Forall₂ (fun p b => HexText p (nibbles b)) rest bs →
        itemBytes index (String.ofList (joined ',' ((hexLead ++ ds) :: rest))) =
          .ok (b :: bs).flatten) ∧
    (∀ (index : Nat) (body : List Char), ',' ∉ body →
      itemBytes index (String.ofList (hexLead ++ body)) =
          (Hex.decode (String.ofList body)).mapError (.invalidHex index) ∧
        itemBytes index (String.ofList (hexLead ++ body)) =
          piecesBytes index (fields ',' (hexLead ++ body))) ∧
    ∀ (l : ParamList) (i : Nat) (chainId : String),
      (∀ bs : List Bytes, l.items[i]? = some bs.flatten → (∀ b ∈ bs, b.length = 24) →
        l.addresses i chainId = .ok (bs.map fun b => ⟨chainId ++ Base58.encode b⟩)) ∧
      ∀ (b : Bytes) (e : ParamError), l.items[i]? = some b →
        (l.addresses i chainId = .error e ↔
          ¬ 24 ∣ b.length ∧ e = .misaligned i b.length 24) := by
  refine ⟨encode_written, fun index b bs ds rest => itemBytes_joined,
    fun index body => itemBytes_hexLead, fun l i chainId => ⟨fun bs => ?_, fun b e hi => ?_⟩⟩
  · exact ParamList.addresses_of_pieces
  · rw [ParamList.addresses_eq_error_iff]
    have hlt : i < l.items.length := (List.getElem?_eq_some_iff.1 hi).1
    rw [or_iff_right fun h => absurd h.1 (Nat.not_le.2 hlt), hi]
    simp only [Option.some.injEq, exists_eq_left']

/-- pieces in either case, with and without their lead; the bodies of two addresses, and a field
that is one byte too long for one -/
theorem nothing_lost_pieces :
    itemBytes 1 "0xAbc0,fF,0x07" = .ok [0xab, 0xc0, 0xff, 7] ∧
      itemBytes 1 "0xAbc" = .error (.invalidHex 1 .oddLength) ∧
      (⟨[List.replicate 48 0]⟩ : ParamList).addresses 0 "bcb" =
        .ok [⟨"bcb111111111111111111111111"⟩, ⟨"bcb111111111111111111111111"⟩] ∧
      (⟨[List.replicate 25 0]⟩ : ParamList).addresses 0 "bcb" = .error (.misaligned 0 25 24) := by
  obtain ⟨-, hjoined, hdirect, haddresses⟩ := nothing_lost
  have hfirst : List.Forall₂ IsHexDigit ['A', 'b', 'c', '0'] (nibbles [0xab, 0xc0]) :=
    .cons rfl (.cons rfl (.cons rfl (.cons rfl .nil)))
  have hsecond : List.Forall₂ IsHexDigit ['f', 'F'] (nibbles [0xff]) := .cons rfl (.cons rfl .nil)
  have hthird : List.Forall₂ IsHexDigit ['0', '7'] (nibbles [7]) := .cons rfl (.cons rfl .nil)
  refine ⟨?_, ?_, ?_, ?_⟩
  · exact hjoined 1 [0xab, 0xc0] [[0xff], [7]] _ [['f', 'F'], ['0', 'x', '0', '7']] hfirst
      (.cons ⟨_, .inl rfl, hsecond⟩ (.cons ⟨_, .inr rfl, hthird⟩ .nil))
  · exact (hdirect 1 ['A', 'b', 'c'] (by decide)).1.trans rfl
  · exact ((haddresses _ 0 "bcb").1 [List.replicate 24 0, List.replicate 24 0] rfl
      (by decide)).trans rfl
  · exact ((haddresses _ 0 "bcb").2 (List.replicate 25 0) _ rfl).2 ⟨by decide, rfl⟩

end Param

end LedgerClient
