import LedgerClient.Address
import LedgerClient.Proofs.Check
import LedgerClient.Proofs.Text.Base58
import LedgerClient.Proofs.Text.Numeral
/-!
# Which texts are addresses

The addresses of a chain are the chain id followed by the base 58 text of bytes that end with the
checksum of those before it. Every other text is refused, for the first thing that is wrong with it.
The addresses of accounts and contracts are of this form, with 24 bytes behind the chain id.

* `Address.Checked b`             `b` ends with the checksum of what stands before it;
* `Address.Refused`               what is wrong with a text, and the error for it;
* `Address.packed_eq_ok_iff`, `packed_eq_error_iff`   every text is one or the other;
* `Address.body_eq_ok_iff`        an address in order is the one of its packed bytes;
* `Address.Packable`              an address with the 24 bytes that a list carries of each;
* `Address.Derived`               the address of an account or of a contract;
* `Address.exact_language`        the texts that are in order, and what a new checksum does to one.
-/

namespace LedgerClient.Address

open Text

variable {P : Primitives} {chainId s : String} {b : Bytes} {e : AddressError}

theorem length_checksum (P : Primitives) (body : Bytes) :
    (checksum P body).length = checksumLength := by
  rw [checksum, List.length_take, P.shortDigest_length]
  rfl

/-! ## bytes with their checksum -/

/-- bytes that end with the checksum of those before it -/
def Checked (P : Primitives) (b : Bytes) : Prop := ∃ body, b = body ++ checksum P body

theorem checked_append_iff {body four : Bytes} (h : four.length = checksumLength) :
    Checked P (body ++ four) ↔ four = checksum P body := by
  constructor
  · rintro ⟨body', e⟩
    have hl : four.length = (checksum P body').length := by rw [h, length_checksum]
    obtain ⟨rfl, hfour⟩ := List.append_inj' e hl
    exact hfour
  · rintro rfl
    exact ⟨body, rfl⟩

/-- bytes with a checksum are long enough for it, and end with it -/
theorem checked_iff : Checked P b ↔ checksumLength ≤ b.length ∧
    b.drop (b.length - checksumLength) = checksum P (b.take (b.length - checksumLength)) := by
  constructor
  · rintro ⟨body, rfl⟩
    have hl : (body ++ checksum P body).length = body.length + checksumLength := by
      rw [List.length_append, length_checksum]
    rw [hl, Nat.add_sub_cancel, List.drop_left, List.take_left]
    exact ⟨Nat.le_add_left _ _, rfl⟩
  · rintro ⟨-, h⟩
    refine ⟨b.take (b.length - checksumLength), ?_⟩
    rw [← h, List.take_append_drop]

theorem Checked.ne_nil (h : Checked P b) : b ≠ [] := by
  rintro rfl
  exact absurd (checked_iff.1 h).1 (by decide)

/-! ## the texts that are in order, and the others -/

theorem tail?_eq_some_iff {rest : String} : tail? chainId s = some rest ↔ s = chainId ++ rest := by
  unfold tail?
  rw [Option.map_eq_some_iff]
  constructor
  · rintro ⟨r, hr, rfl⟩
    rw [← String.ofList_toList (s := s), dropLead?_eq_some_iff.1 hr, String.ofList_append,
      String.ofList_toList]
  · rintro rfl
    refine ⟨rest.toList, ?_, String.ofList_toList⟩
    rw [String.toList_append, dropLead?_append]

/-- what is wrong with a text, and how it is told: the first of these that applies -/
inductive Refused (P : Primitives) (chainId : String) : String → AddressError → Prop
  | otherChain {s : String} :
    (¬ ∃ rest, s = chainId ++ rest) → Refused P chainId s (.otherChain chainId s)
  | empty {rest : String} :
    rest = "" ∨ ¬ Base58.AllDigits rest → Refused P chainId (chainId ++ rest) .empty
  | checksum {b : Bytes} :
    b ≠ [] → ¬ Checked P b → Refused P chainId (ofPacked chainId b).text .checksum

theorem packed_ofPacked (h : b ≠ []) : packed P chainId (ofPacked chainId b).text =
    if b.length < checksumLength then .error .checksum
    else if b.drop (b.length - checksumLength) = checksum P (b.take (b.length - checksumLength))
      then .ok b else .error .checksum := by
  have ht : tail? chainId (ofPacked chainId b).text = some (Base58.encode b) :=
    tail?_eq_some_iff.2 rfl
  unfold packed
  rw [ht]
  dsimp only
  rw [Base58.decode_encode]
  cases b with
  | nil => exact absurd rfl h
  | cons x r => rfl

theorem packed_of_checked (h : Checked P b) : packed P chainId (ofPacked chainId b).text = .ok b := by
  obtain ⟨hl, hsum⟩ := checked_iff.1 h
  rw [packed_ofPacked h.ne_nil, if_neg (Nat.not_lt.2 hl), if_pos hsum]

theorem packed_of_refused (h : Refused P chainId s e) : packed P chainId s = .error e := by
  cases h with
  | otherChain h =>
    have ht : tail? chainId s = none :=
      Option.eq_none_iff_forall_ne_some.2 fun rest hs => h ⟨rest, tail?_eq_some_iff.1 hs⟩
    rw [packed, ht]
  | @empty rest h =>
    rw [packed, tail?_eq_some_iff.2 rfl]
    dsimp only
    cases hd : Base58.decode rest with
    | error _ => rfl
    | ok b =>
      -- digits were read, so there were none to read
      have hrest : rest = "" := h.resolve_right fun hn => hn (Base58.exists_decode_iff.1 ⟨b, hd⟩)
      have hb : Base58.encode b = Base58.encode [] :=
        (Base58.encode_of_decode hd).trans hrest
      rw [Base58.encode_injective hb]
  | @checksum b hne h =>
    rw [packed_ofPacked hne]
    by_cases hl : b.length < checksumLength
    · rw [if_pos hl]
    · rw [if_neg hl, if_neg fun hsum => h (checked_iff.2 ⟨Nat.le_of_not_lt hl, hsum⟩)]

theorem checked_or_refused (P : Primitives) (chainId s : String) :
    (∃ b, Checked P b ∧ s = (ofPacked chainId b).text) ∨ ∃ e, Refused P chainId s e := by
  by_cases hchain : ∃ rest, s = chainId ++ rest
  · obtain ⟨rest, rfl⟩ := hchain
    by_cases hdigits : Base58.AllDigits rest
    · obtain ⟨b, hb⟩ := Base58.exists_decode_iff.2 hdigits
      obtain rfl := Base58.encode_of_decode hb
      by_cases hnil : b = []
      · subst hnil
        exact .inr ⟨_, .empty (.inl rfl)⟩
      · by_cases hc : Checked P b
        · exact .inl ⟨b, hc, rfl⟩
        · exact .inr ⟨_, .checksum hnil hc⟩
    · exact .inr ⟨_, .empty (.inr hdigits)⟩
  · exact .inr ⟨_, .otherChain hchain⟩

theorem packed_eq_ok_iff :
    packed P chainId s = .ok b ↔ Checked P b ∧ s = (ofPacked chainId b).text := by
  constructor
  · intro h
    rcases checked_or_refused P chainId s with ⟨b', hc, rfl⟩ | ⟨e, hr⟩
    · obtain rfl : b' = b := Except.ok.inj ((packed_of_checked hc).symm.trans h)
      exact ⟨hc, rfl⟩
    · cases (packed_of_refused hr).symm.trans h
  · rintro ⟨hc, rfl⟩
    exact packed_of_checked hc

theorem packed_eq_error_iff : packed P chainId s = .error e ↔ Refused P chainId s e := by
  refine ⟨fun h => ?_, packed_of_refused⟩
  rcases checked_or_refused P chainId s with ⟨b, hc, rfl⟩ | ⟨e', hr⟩
  · cases (packed_of_checked hc).symm.trans h
  · obtain rfl : e' = e := Except.error.inj ((packed_of_refused hr).symm.trans h)
    exact hr

theorem validate_eq_ok_iff :
    validate P chainId s = .ok () ↔ ∃ b, Checked P b ∧ s = (ofPacked chainId b).text := by
  unfold validate
  rw [map_eq_ok_iff]
  constructor
  · rintro ⟨b, hb, -⟩
    exact ⟨b, packed_eq_ok_iff.1 hb⟩
  · rintro ⟨b, h⟩
    exact ⟨b, packed_eq_ok_iff.2 h, rfl⟩

theorem validate_eq_error_iff : validate P chainId s = .error e ↔ Refused P chainId s e := by
  rw [← packed_eq_error_iff, validate]
  cases packed P chainId s with
  | error _ => exact ⟨fun h => congrArg _ (Except.error.inj h), fun h => congrArg _ (Except.error.inj h)⟩
  | ok _ => exact ⟨nofun, nofun⟩

theorem ofPacked_inj {b' : Bytes} (h : ofPacked chainId b = ofPacked chainId b') : b = b' := by
  have ht : chainId ++ Base58.encode b = chainId ++ Base58.encode b' := congrArg Address.text h
  have hl := congrArg String.toList ht
  rw [String.toList_append, String.toList_append] at hl
  exact Base58.encode_injective (String.toList_injective (List.append_cancel_left hl))

/-- the bytes behind the chain id decide whether an address is in order -/
theorem validate_ofPacked_iff :
    validate P chainId (ofPacked chainId b).text = .ok () ↔ Checked P b := by
  rw [validate_eq_ok_iff]
  constructor
  · rintro ⟨b', hc, h⟩
    obtain rfl : b = b' := ofPacked_inj (congrArg Address.mk h)
    exact hc
  · intro hc
    exact ⟨b, hc, rfl⟩

theorem packed_ofBody (P : Primitives) (chainId : String) (body : Bytes) :
    packed P chainId (ofBody P chainId body).text = .ok (body ++ checksum P body) :=
  packed_of_checked ⟨body, rfl⟩

theorem body_eq_ok_iff {a : Address} :
    a.body P chainId = .ok b ↔ Checked P b ∧ a = ofPacked chainId b := by
  rw [body, packed_eq_ok_iff, Address.mk.injEq]

theorem parse_eq_ok_iff {a : Address} :
    parse P chainId s = .ok a ↔ validate P chainId s = .ok () ∧ a = ⟨s⟩ := by
  rw [parse, validate]
  cases packed P chainId s with
  | error _ => exact ⟨nofun, nofun⟩
  | ok _ => exact ⟨fun h => ⟨rfl, (Except.ok.inj h).symm⟩, fun h => congrArg _ h.2.symm⟩

theorem parse_of_validate (h : validate P chainId s = .ok ()) : parse P chainId s = .ok ⟨s⟩ :=
  parse_eq_ok_iff.2 ⟨h, rfl⟩

theorem parse_of_validate_error (h : validate P chainId s = .error e) :
    parse P chainId s = .error e := by
  rw [parse, packed_eq_error_iff.2 (validate_eq_error_iff.1 h)]
  rfl

/-- addresses in order are the ones of their bytes, one by one -/
theorem bodies_iff {as : List Address} {bs : List Bytes} :
    List.Forall₂ (fun a b => body P chainId a = .ok b) as bs ↔
      (∀ b ∈ bs, Checked P b) ∧ as = bs.map (ofPacked chainId) := by
  induction bs generalizing as with
  | nil => simp
  | cons b bs ih =>
    rw [List.forall₂_cons_right_iff, List.forall_mem_cons, List.map_cons]
    constructor
    · rintro ⟨a, as, hab, has, rfl⟩
      obtain ⟨hb, rfl⟩ := body_eq_ok_iff.1 hab
      obtain ⟨hbs, rfl⟩ := ih.1 has
      exact ⟨⟨hb, hbs⟩, rfl⟩
    · rintro ⟨⟨hb, hbs⟩, rfl⟩
      exact ⟨_, _, body_eq_ok_iff.2 ⟨hb, rfl⟩, ih.2 ⟨hbs, rfl⟩, rfl⟩

/-- an address in order, with as many bytes as a list carries of each of its addresses -/
def Packable (P : Primitives) (chainId : String) (a : Address) : Prop :=
  ∃ b, a.body P chainId = .ok b ∧ b.length = packedLength

theorem packable_ofPacked_iff (h : Checked P b) :
    Packable P chainId (ofPacked chainId b) ↔ b.length = packedLength := by
  constructor
  · rintro ⟨b', hb, hlen⟩
    rw [ofPacked_inj (body_eq_ok_iff.1 hb).2, hlen]
  · intro hlen
    exact ⟨b, body_eq_ok_iff.2 ⟨h, rfl⟩, hlen⟩

/-! ## accounts and contracts -/

/-- the address of an account or of a contract on a chain -/
def Derived (P : Primitives) (chainId : String) (a : Address) : Prop :=
  (∃ key, a = ofPublicKey P chainId key) ∨
    ∃ owner name version, a = ofContract P chainId owner name version

theorem Derived.exists_ofBody {a : Address} (h : Derived P chainId a) :
    ∃ d, a = ofBody P chainId (P.shortDigest d) := by
  rcases h with ⟨key, rfl⟩ | ⟨owner, name, version, rfl⟩
  · exact ⟨_, rfl⟩
  · exact ⟨_, rfl⟩

theorem Derived.packable {a : Address} (h : Derived P chainId a) : Packable P chainId a := by
  obtain ⟨d, rfl⟩ := h.exists_ofBody
  refine ⟨_, packed_ofBody P chainId (P.shortDigest d), ?_⟩
  rw [List.length_append, length_checksum, P.shortDigest_length]
  rfl

/-! ## the language of addresses -/

theorem refused_otherChain_iff :
    Refused P chainId s (.otherChain chainId s) ↔ ¬ ∃ rest, s = chainId ++ rest := by
  constructor
  · intro h
    cases h with
    | otherChain h => exact h
  · exact .otherChain

theorem refused_empty_iff : Refused P chainId s .empty ↔
    ∃ rest, s = chainId ++ rest ∧ (rest = "" ∨ ¬ Base58.AllDigits rest) := by
  constructor
  · intro h
    cases h with
    | empty h => exact ⟨_, rfl, h⟩
  · rintro ⟨rest, rfl, h⟩
    exact .empty h

theorem refused_checksum_iff : Refused P chainId s .checksum ↔
    ∃ rest, s = chainId ++ rest ∧ rest ≠ "" ∧ Base58.AllDigits rest ∧
      ¬ ∃ body, rest = Base58.encode (body ++ checksum P body) := by
  constructor
  · intro h
    cases h with
    | @checksum b hne h =>
      refine ⟨Base58.encode b, rfl, ?_, Base58.exists_decode_iff.1 ⟨b, Base58.decode_encode b⟩, ?_⟩
      · intro hempty
        exact Base58.encode_ne_nil hne (congrArg String.toList hempty)
      · rintro ⟨body, hb⟩
        exact h ⟨body, Base58.encode_injective hb⟩
  · rintro ⟨rest, rfl, hrest, hdigits, h⟩
    obtain ⟨b, hb⟩ := Base58.exists_decode_iff.2 hdigits
    obtain rfl := Base58.encode_of_decode hb
    refine .checksum ?_ ?_
    · rintro rfl
      exact hrest rfl
    · rintro ⟨body, rfl⟩
      exact h ⟨body, rfl⟩

/-- other last four bytes are never the checksum -/
theorem refused_of_other_checksum {four : Bytes} (h : Checked P b)
    (hlen : four.length = checksumLength) (hne : four ≠ b.drop (b.length - checksumLength)) :
    Refused P chainId (ofPacked chainId (b.take (b.length - checksumLength) ++ four)).text
      .checksum := by
  refine .checksum ?_ ?_
  · intro hnil
    rw [(List.append_eq_nil_iff.1 hnil).2] at hlen
    cases hlen
  · intro hc
    exact hne (((checked_append_iff hlen).1 hc).trans (checked_iff.1 h).2.symm)

/-- a text is in order exactly when it is the chain id and the base 58 text of bytes with their
checksum, and each error has its own texts; derived addresses are in order, and no other checksum
is good for an address -/
theorem exact_language (P : Primitives) (chainId : String) :
    (∀ s,
      (validate P chainId s = .ok () ↔ ∃ body, s = chainId ++ Base58.encode (body ++ checksum P body)) ∧
      (validate P chainId s = .error (.otherChain chainId s) ↔ ¬ ∃ rest, s = chainId ++ rest) ∧
      (validate P chainId s = .error .empty ↔
        ∃ rest, s = chainId ++ rest ∧ (rest = "" ∨ ¬ Base58.AllDigits rest)) ∧
      (validate P chainId s = .error .checksum ↔
        ∃ rest, s = chainId ++ rest ∧ rest ≠ "" ∧ Base58.AllDigits rest ∧
          ¬ ∃ body, rest = Base58.encode (body ++ checksum P body))) ∧
    (∀ a, Derived P chainId a → validate P chainId a.text = .ok () ∧
      ∃ b, a.body P chainId = .ok b ∧ b.length = packedLength) ∧
    (∀ a b four, Address.body P chainId a = .ok b → four.length = checksumLength →
      four ≠ b.drop (b.length - checksumLength) →
      validate P chainId (ofPacked chainId (b.take (b.length - checksumLength) ++ four)).text =
        .error .checksum) := by
  refine ⟨fun s => ⟨?_, ?_, ?_, ?_⟩, fun a ha => ?_, fun a b four hb hlen hne => ?_⟩
  · rw [validate_eq_ok_iff]
    constructor
    · rintro ⟨b, ⟨body, rfl⟩, rfl⟩
      exact ⟨body, rfl⟩
    · rintro ⟨body, rfl⟩
      exact ⟨_, ⟨body, rfl⟩, rfl⟩
  · rw [validate_eq_error_iff, refused_otherChain_iff]
  · rw [validate_eq_error_iff, refused_empty_iff]
  · rw [validate_eq_error_iff, refused_checksum_iff]
  · obtain ⟨b, hb, hlen⟩ := ha.packable
    exact ⟨validate_eq_ok_iff.2 ⟨b, packed_eq_ok_iff.1 hb⟩, b, hb, hlen⟩
  · exact validate_eq_error_iff.2 (refused_of_other_checksum (packed_eq_ok_iff.1 hb).1 hlen hne)

end LedgerClient.Address
