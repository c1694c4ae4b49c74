import LedgerClient.Proofs.Address
import LedgerClient.Proofs.Param.Grammar
import LedgerClient.Proofs.Transaction.Form
/-!
# The grammar of a transaction form

Each field of a form has a grammar of its own, said here without the readers: numbers and selector
by their hexadecimal digits, the note by its length, the destination by the check of addresses and
the items by their pieces. A form whose fields all pass is the transaction they denote; any other
is refused for its first field that does not pass, in the order of `Field`.

* `IsWord s n`, `IsSelectorText s n`   `s` is hexadecimal for the number `n`;
* `TransactionForm.Passes`             what each field has to be;
* `TransactionForm.Fails`              how each field fails, and the error for it;
* `TransactionForm.Denotes`            the transaction that the fields stand for;
* `TransactionForm.validate_grammar`   which forms are accepted, as what, and why others are not.
-/

namespace LedgerClient

open Text

/-- one or more digits, `0x` in front or not, of a number below `2 ^ 64` -/
def IsWord (s : String) (n : Nat) : Prop :=
  n < 2 ^ 64 ∧ ∃ vs, vs ≠ [] ∧ HexText s.toList vs ∧ hexValue vs = n

/-- eight digits, `0x` in front or not -/
def IsSelectorText (s : String) (n : Nat) : Prop :=
  ∃ vs, vs.length = 8 ∧ HexText s.toList vs ∧ hexValue vs = n

theorem TransactionForm.word?_eq_some_iff {s : String} {w : UInt64} :
    word? s = some w ↔ IsWord s w.toNat := by
  have hnum : ∀ n, numeral? 16 (dropLead ['0', 'x'] s.toList) = some n ↔
      ∃ vs, vs ≠ [] ∧ HexText s.toList vs ∧ hexValue vs = n := by
    intro n
    simp only [numeral?_eq_some_iff, hexText_iff]
  constructor
  · intro h
    obtain ⟨n, hn, rfl⟩ := Option.map_eq_some_iff.1 h
    obtain ⟨m, hm, hb⟩ := Option.bind_eq_some_iff.1 hn
    obtain ⟨hlt, rfl⟩ : m < 2 ^ 64 ∧ m = n := by simpa [bounded?] using hb
    rw [UInt64.toNat_ofNat_of_lt' hlt]
    exact ⟨hlt, (hnum m).1 hm⟩
  · rintro ⟨hlt, h⟩
    have hb : bounded? (Nat.pow 2 64) w.toNat = some w.toNat := if_pos hlt
    rw [word?, (hnum w.toNat).2 h, Option.bind_some, hb, Option.map_some, UInt64.ofNat_toNat]

theorem IsWord.exists_word? {s : String} {n : Nat} (h : IsWord s n) :
    ∃ w, TransactionForm.word? s = some w := by
  have hw : (UInt64.ofNat n).toNat = n := UInt64.toNat_ofNat_of_lt' h.1
  exact ⟨UInt64.ofNat n, TransactionForm.word?_eq_some_iff.2 (hw.symm ▸ h)⟩

/-- eight digits are those of four bytes -/
theorem isSelectorText_iff {s : String} {n : Nat} : IsSelectorText s n ↔
    ∃ b : Bytes, b.length = 4 ∧ HexText s.toList (nibbles b) ∧ Bytes.toNat b = n := by
  constructor
  · rintro ⟨vs, hlen, h, rfl⟩
    obtain ⟨b, rfl⟩ := exists_nibbles (lt_of_forall₂_isHexDigit (hexText_iff.1 h)) (by rw [hlen])
    rw [length_nibbles] at hlen
    exact ⟨b, by omega, h, (hexValue_nibbles b).symm⟩
  · rintro ⟨b, hlen, h, rfl⟩
    exact ⟨nibbles b, by rw [length_nibbles, hlen], h, hexValue_nibbles b⟩

theorem Selector.ofBytes_eq_iff {b : Bytes} (hb : b.length = 4) {sel : Selector} :
    ofBytes b = sel ↔ Bytes.toNat b = sel.id.toNat := by
  have hlt := Bytes.toNat_lt b
  rw [hb] at hlt
  rw [ofBytes, Selector.mk.injEq, ← UInt32.toNat_inj, UInt32.toNat_ofNat_of_lt' hlt]

theorem Selector.parse?_eq_some_iff {s : String} {sel : Selector} :
    parse? s = some sel ↔ IsSelectorText s sel.id.toNat := by
  have hdecode : ∀ b, Hex.decode (String.ofList (dropLead ['0', 'x'] s.toList)) = .ok b ↔
      HexText s.toList (nibbles b) := by
    intro b
    rw [Hex.decode_eq_ok_iff, String.toList_ofList, hexText_iff]
  rw [isSelectorText_iff, parse?]
  constructor
  · intro h
    split at h
    · rename_i b hb
      split at h
      · rename_i hlen
        exact ⟨b, hlen, (hdecode b).1 hb, (ofBytes_eq_iff hlen).1 (Option.some.inj h)⟩
      · cases h
    · cases h
  · rintro ⟨b, hlen, h, hv⟩
    rw [(hdecode b).2 h]
    dsimp only
    rw [if_pos hlen, (ofBytes_eq_iff hlen).2 hv]

theorem IsSelectorText.exists_parse? {s : String} {n : Nat} (h : IsSelectorText s n) :
    ∃ sel, Selector.parse? s = some sel := by
  obtain ⟨b, hlen, hs, -⟩ := isSelectorText_iff.1 h
  exact ⟨Selector.ofBytes b, Selector.parse?_eq_some_iff.2
    (isSelectorText_iff.2 ⟨b, hlen, hs, (Selector.ofBytes_eq_iff hlen).1 rfl⟩)⟩

namespace TransactionForm

variable {P : Primitives} {c : Chain} {f : TransactionForm} {t : Transaction} {e : InputError}

/-- the fields in the order of their checks -/
inductive Field where
  | nonce
  | gasLimit
  | selector
  | note
  | destination
  | items
deriving DecidableEq

def Field.rank : Field → Nat
  | nonce => 0
  | gasLimit => 1
  | selector => 2
  | note => 3
  | destination => 4
  | items => 5

/-- the field is as it has to be -/
def Passes (P : Primitives) (c : Chain) (f : TransactionForm) : Field → Prop
  | .nonce => ∃ n, IsWord f.nonce n
  | .gasLimit => ∃ n, IsWord f.gasLimit n
  | .selector => ∃ n, IsSelectorText f.selector n
  | .note => f.note.toList.length ≤ 256
  | .destination => Address.validate P c.id f.destination = .ok ()
  | .items => ∀ item ∈ f.items, Param.InOrder item

/-- the field is not, and what is told about it; of several faulty items it is the first -/
inductive Fails (P : Primitives) (c : Chain) (f : TransactionForm) : Field → InputError → Prop
  | nonce : ¬ Passes P c f .nonce → Fails P c f .nonce (.badNonce f.nonce)
  | gasLimit : ¬ Passes P c f .gasLimit → Fails P c f .gasLimit (.badGasLimit f.gasLimit)
  | selector : ¬ Passes P c f .selector → Fails P c f .selector (.badSelector f.selector)
  | note : ¬ Passes P c f .note → Fails P c f .note (.noteTooLong f.note.toList.length 256)
  | destination {cause : AddressError} :
    Address.validate P c.id f.destination = .error cause →
    Fails P c f .destination (.badDestination cause)
  | items {pre post : List String} {item : String} {fault : Hex.Error} :
    f.items = pre ++ item :: post → (∀ x ∈ pre, Param.InOrder x) → Param.FaultyItem item fault →
    Fails P c f .items (.badParameter (.invalidHex pre.length fault))

/-- the transaction carries what the fields stand for -/
structure Denotes (f : TransactionForm) (t : Transaction) : Prop where
  nonce : IsWord f.nonce t.nonce.toNat
  gasLimit : IsWord f.gasLimit t.gasLimit.toNat
  note : t.note = f.note
  destination : t.destination.text = f.destination
  call : ∃ (sel : Selector) (bs : List Bytes), IsSelectorText f.selector sel.id.toNat ∧
    List.Forall₂ Param.Stands f.items bs ∧
    t.data = Record.encode (⟨sel, Param.listOf bs⟩ : MethodCall)

theorem passes_items_iff : Passes P c f .items ↔ ∃ bs, Param.itemsBytes f.items = .ok bs := by
  simp only [Param.itemsBytes_eq_ok_iff_stands, exists_forall₂_iff, Param.exists_stands_iff]
  rfl

theorem Valid.passes {sel : Selector} {bs : List Bytes} (h : Valid P c f t sel bs) :
    ∀ field, Passes P c f field
  | .nonce => ⟨_, word?_eq_some_iff.1 h.nonce⟩
  | .gasLimit => ⟨_, word?_eq_some_iff.1 h.gasLimit⟩
  | .selector => ⟨_, Selector.parse?_eq_some_iff.1 h.selector⟩
  | .note => h.noteLength
  | .destination => (Address.parse_eq_ok_iff.1 h.destination).1
  | .items => passes_items_iff.2 ⟨bs, h.items⟩

theorem Valid.denotes {sel : Selector} {bs : List Bytes} (h : Valid P c f t sel bs) :
    Denotes f t where
  nonce := word?_eq_some_iff.1 h.nonce
  gasLimit := word?_eq_some_iff.1 h.gasLimit
  note := h.note
  destination := congrArg Address.text (Address.parse_eq_ok_iff.1 h.destination).2
  call := ⟨sel, bs, Selector.parse?_eq_some_iff.1 h.selector,
    Param.itemsBytes_eq_ok_iff_stands.1 h.items, h.data⟩

/-- the checks find something in each field that passes -/
theorem exists_valid (h : ∀ field, Passes P c f field) : ∃ t sel bs, Valid P c f t sel bs := by
  obtain ⟨_, hn⟩ := h .nonce
  obtain ⟨_, hg⟩ := h .gasLimit
  obtain ⟨_, hs⟩ := h .selector
  obtain ⟨nonce, hnonce⟩ := hn.exists_word?
  obtain ⟨gasLimit, hgas⟩ := hg.exists_word?
  obtain ⟨sel, hsel⟩ := hs.exists_parse?
  obtain ⟨bs, hbs⟩ := passes_items_iff.1 (h .items)
  exact ⟨⟨nonce, gasLimit, f.note, ⟨f.destination⟩, _⟩, sel, bs, hnonce, hgas, hsel, h .note, rfl,
    Address.parse_of_validate (h .destination), hbs, rfl⟩

theorem validate_eq_ok_iff_denotes :
    f.validate P c = .ok t ↔ (∀ field, Passes P c f field) ∧ Denotes f t := by
  rw [validate_eq_ok_iff]
  constructor
  · rintro ⟨sel, bs, h⟩
    exact ⟨h.passes, h.denotes⟩
  · rintro ⟨hp, hd⟩
    obtain ⟨sel, bs, hsel, hbs, hdata⟩ := hd.call
    exact ⟨sel, bs, word?_eq_some_iff.2 hd.nonce, word?_eq_some_iff.2 hd.gasLimit,
      Selector.parse?_eq_some_iff.2 hsel, hp .note, hd.note,
      Address.parse_eq_ok_iff.2 ⟨hp .destination, congrArg Address.mk hd.destination⟩,
      Param.itemsBytes_eq_ok_iff_stands.2 hbs, hdata⟩

/-! ## the first failure -/

theorem passes_or_fails (P : Primitives) (c : Chain) (f : TransactionForm) (field : Field) :
    Passes P c f field ∨ ∃ e, Fails P c f field e := by
  by_cases h : Passes P c f field
  · exact .inl h
  · refine .inr ?_
    cases field with
    | nonce => exact ⟨_, .nonce h⟩
    | gasLimit => exact ⟨_, .gasLimit h⟩
    | selector => exact ⟨_, .selector h⟩
    | note => exact ⟨_, .note h⟩
    | destination =>
      cases hd : Address.validate P c.id f.destination with
      | ok _ => exact absurd hd h
      | error cause => exact ⟨_, .destination hd⟩
    | items =>
      obtain ⟨pre, item, post, hitems, hpre, hbad⟩ := exists_first h
      obtain ⟨fault, hf⟩ := (Param.inOrder_or_faulty item).resolve_left hbad
      exact ⟨_, .items hitems hpre hf⟩

theorem exists_word_ok {s : String} {x : InputError} (h : ∃ n, IsWord s n) :
    ∃ w, orElseError x (word? s) = .ok w := by
  obtain ⟨_, hn⟩ := h
  exact hn.exists_word?.imp fun _ => orElseError_eq_ok_iff.2

theorem exists_selector_ok {s : String} {x : InputError} (h : ∃ n, IsSelectorText s n) :
    ∃ sel, orElseError x (Selector.parse? s) = .ok sel := by
  obtain ⟨_, hn⟩ := h
  exact hn.exists_parse?.imp fun _ => orElseError_eq_ok_iff.2

theorem callOf_of_faulty {items pre post : List String} {item : String} {fault : Hex.Error}
    (sel : Selector) (hitems : items = pre ++ item :: post) (hpre : ∀ x ∈ pre, Param.InOrder x)
    (hf : Param.FaultyItem item fault) :
    callOf sel items = .error (.badParameter (.invalidHex pre.length fault)) := by
  have hbytes : Param.itemsBytes items = .error (.invalidHex pre.length fault) :=
    Param.itemsBytes_eq_error_iff.2 ⟨pre, item, post, fault, hitems, hpre, hf, rfl⟩
  rw [callOf, Param.encode, hbytes]
  rfl

/-- a form is refused for a field that fails when those checked before it pass -/
theorem validate_of_fails {field : Field} (h : Fails P c f field e)
    (hbefore : ∀ g : Field, g.rank < field.rank → Passes P c f g) : f.validate P c = .error e := by
  -- what the checks before the failing one gave
  have hnonce (hr : 0 < field.rank) :
      ∃ w, orElseError (InputError.badNonce f.nonce) (word? f.nonce) = .ok w :=
    exists_word_ok (hbefore .nonce hr)
  have hgas (hr : 1 < field.rank) :
      ∃ w, orElseError (InputError.badGasLimit f.gasLimit) (word? f.gasLimit) = .ok w :=
    exists_word_ok (hbefore .gasLimit hr)
  have hsel (hr : 2 < field.rank) :
      ∃ s, orElseError (InputError.badSelector f.selector) (Selector.parse? f.selector) = .ok s :=
    exists_selector_ok (hbefore .selector hr)
  have hnote (hr : 3 < field.rank) : checkNote f.note = .ok () :=
    checkNote_eq_ok_iff.2 (hbefore .note hr)
  have hdest (hr : 4 < field.rank) : destinationOf P c f.destination = .ok ⟨f.destination⟩ :=
    destinationOf_eq_ok_iff.2 (Address.parse_of_validate (hbefore .destination hr))
  unfold validate
  cases h with
  | nonce h =>
    rw [orElseError_of_forall_ne fun w hw => h ⟨_, word?_eq_some_iff.1 hw⟩]
    rfl
  | gasLimit h =>
    obtain ⟨_, h0⟩ := hnonce (by decide)
    rw [h0, ok_bind, orElseError_of_forall_ne fun w hw => h ⟨_, word?_eq_some_iff.1 hw⟩]
    rfl
  | selector h =>
    obtain ⟨_, h0⟩ := hnonce (by decide)
    obtain ⟨_, h1⟩ := hgas (by decide)
    rw [h0, ok_bind, h1, ok_bind,
      orElseError_of_forall_ne fun sel hs => h ⟨_, Selector.parse?_eq_some_iff.1 hs⟩]
    rfl
  | note h =>
    obtain ⟨_, h0⟩ := hnonce (by decide)
    obtain ⟨_, h1⟩ := hgas (by decide)
    obtain ⟨_, h2⟩ := hsel (by decide)
    rw [h0, ok_bind, h1, ok_bind, h2, ok_bind, checkNote_of_lt (Nat.not_le.1 h)]
    rfl
  | destination h =>
    obtain ⟨_, h0⟩ := hnonce (by decide)
    obtain ⟨_, h1⟩ := hgas (by decide)
    obtain ⟨_, h2⟩ := hsel (by decide)
    rw [h0, ok_bind, h1, ok_bind, h2, ok_bind, hnote (by decide), ok_bind, destinationOf,
      Address.parse_of_validate_error h]
    rfl
  | items hitems hpre hf =>
    obtain ⟨_, h0⟩ := hnonce (by decide)
    obtain ⟨_, h1⟩ := hgas (by decide)
    obtain ⟨sel, h2⟩ := hsel (by decide)
    rw [h0, ok_bind, h1, ok_bind, h2, ok_bind, hnote (by decide), ok_bind, hdest (by decide),
      ok_bind, callOf_of_faulty sel hitems hpre hf]
    rfl

/-- either every field passes, or there is a first one that fails -/
theorem passes_or_first_fails (P : Primitives) (c : Chain) (f : TransactionForm) :
    (∀ field, Passes P c f field) ∨
      ∃ field e, Fails P c f field e ∧ ∀ g : Field, g.rank < field.rank → Passes P c f g := by
  by_cases h : ∀ field, Passes P c f field
  · exact .inl h
  · obtain ⟨field, hne⟩ := not_forall.1 h
    obtain ⟨first, hfirst, hmin⟩ := (InvImage.wf Field.rank Nat.lt_wfRel.wf).has_min
      {g | ¬ Passes P c f g} ⟨field, hne⟩
    obtain ⟨e, he⟩ := (passes_or_fails P c f first).resolve_left hfirst
    exact .inr ⟨first, e, he, fun g hg => by_contra fun hn => hmin g hn hg⟩

theorem validate_eq_error_iff : f.validate P c = .error e ↔
    ∃ field, Fails P c f field e ∧ ∀ g : Field, g.rank < field.rank → Passes P c f g := by
  constructor
  · intro h
    rcases passes_or_first_fails P c f with hp | ⟨field, e', hf, hbefore⟩
    · obtain ⟨t, sel, bs, hv⟩ := exists_valid hp
      cases (validate_eq_ok_iff.2 ⟨sel, bs, hv⟩).symm.trans h
    · obtain rfl : e' = e := Except.error.inj ((validate_of_fails hf hbefore).symm.trans h)
      exact ⟨field, hf, hbefore⟩
  · rintro ⟨field, hf, hbefore⟩
    exact validate_of_fails hf hbefore

/-- a form is accepted exactly when every field passes, as the transaction its fields denote;
otherwise its error is that of the first field that does not pass -/
theorem validate_grammar (P : Primitives) (c : Chain) (f : TransactionForm) :
    ((∃ t, f.validate P c = .ok t) ↔ ∀ field, Passes P c f field) ∧
    (∀ t, f.validate P c = .ok t ↔ (∀ field, Passes P c f field) ∧ Denotes f t) ∧
    (∀ e, f.validate P c = .error e ↔
      ∃ field, Fails P c f field e ∧ ∀ g : Field, g.rank < field.rank → Passes P c f g) := by
  refine ⟨⟨?_, fun h => ?_⟩, fun t => validate_eq_ok_iff_denotes, fun e => validate_eq_error_iff⟩
  · rintro ⟨t, ht⟩
    exact (validate_eq_ok_iff_denotes.1 ht).1
  · obtain ⟨t, sel, bs, hv⟩ := exists_valid h
    exact ⟨t, validate_eq_ok_iff.2 ⟨sel, bs, hv⟩⟩

end TransactionForm

end LedgerClient
