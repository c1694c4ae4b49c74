import LedgerClient.Proofs.Rpc.Phase
import LedgerClient.Proofs.Text.Blank
import LedgerClient.Proofs.Text.Decimal
import Mathlib.Tactic.MkIffOfInductiveProp
/-!
# Heights and nonces, as numbers and as text

A node may give a whole number as a number or as the text of one, and the reader takes either. The
two languages are told here once, and the four records that hold such a number are read in terms of
them. Whatever else a record holds stands in its other fields, so that a number can change its form
and nothing else about the answer changes.

* `Rpc.NumberText s n`     blanks around it, a plus sign or none, and digits that denote `n`;
* `Rpc.Spells v n`         a number of 64 bits, or a text of one;
* `Rpc.SpellsOptional`     the same in a slot that may be empty;
* `Rpc.lenient_eq_some_iff`   the reader takes what spells a number, and nothing else;
* `Json.Switched`          a value in which one field has changed its form;
* `Rpc.lenient_language`   the four records that hold a lenient number.
-/

namespace LedgerClient.Rpc

open Text

variable {s : String} {n : Nat} {v : Json} {room : Nat}

/-! ## the text of a number -/

/-- blanks around it, a plus sign or none, and one or more digits; zeros may stand in front -/
def NumberText (s : String) (n : Nat) : Prop :=
  ∃ cs ds, Trimmed s.toList cs ∧ (cs = ds ∨ cs = '+' :: ds) ∧ ds ≠ [] ∧ DecimalText ds n

/-- a plus sign is no digit -/
theorem not_decimalText_plus {cs : List Char} : ¬ DecimalText ('+' :: cs) n := by
  rintro ⟨vs, hvs, -⟩
  cases hvs with
  | cons hplus _ => exact absurd (List.mem_of_getElem? hplus) (by decide)

/-- the text of a number is trimmed, and its sign is dropped if it has one -/
theorem numeral?_eq_some_iff_numberText :
    numeral? 10 (dropLead ['+'] (trimChars s.toList)) = some n ↔ NumberText s n := by
  rw [numeral?_ten_eq_some_iff]
  constructor
  · intro h
    exact ⟨_, _, trimmed_trimChars s.toList, eq_dropLead_or ['+'] _, h⟩
  · rintro ⟨cs, ds, htrim, hsign, hds⟩
    rw [← trimmed_iff.1 htrim]
    rcases hsign with rfl | rfl
    · have hplus : ∀ r, cs ≠ ['+'] ++ r := by
        rintro r rfl
        exact not_decimalText_plus hds.2
      rwa [dropLead_of_ne hplus]
    · rwa [show '+' :: ds = ['+'] ++ ds from rfl, dropLead_append]

theorem NumberText.unique {m : Nat} (hn : NumberText s n) (hm : NumberText s m) : n = m := by
  have hread := numeral?_eq_some_iff_numberText.2 hn
  rw [numeral?_eq_some_iff_numberText.2 hm] at hread
  exact (Option.some_inj.1 hread).symm

theorem decimal?_eq_some_iff : decimal? s = some n ↔ NumberText s n ∧ n < 2 ^ 64 := by
  unfold decimal?
  rw [bind_bounded?_eq_some_iff, numeral?_eq_some_iff_numberText]
  rfl

theorem not_isBlank_of_decimalText {cs : List Char} (h : DecimalText cs n) :
    ∀ c ∈ cs, isBlank c = false := by
  obtain ⟨vs, hvs, -⟩ := h
  intro c hc
  obtain ⟨v, hv⟩ := exists_forall₂_iff.1 ⟨vs, hvs⟩ c hc
  have hall : decimalAlphabet.all (fun d => !isBlank d) = true := rfl
  simpa using List.all_eq_true.1 hall c (List.mem_of_getElem? hv)

/-- the decimal text of a number is one -/
theorem numberText_toString (n : Nat) : NumberText (toString n) n := by
  have hchars : (toString n).toList = Nat.toDigits 10 n := Nat.toList_repr
  have hdigits := decimalText_toDigits n
  refine ⟨Nat.toDigits 10 n, Nat.toDigits 10 n, ?_, .inl rfl, Nat.toDigits_ne_nil, hdigits⟩
  rw [hchars]
  exact trimmed_self (not_isBlank_of_decimalText hdigits)

/-! ## numbers and texts -/

/-- a number of 64 bits, or a text of one -/
inductive Spells : Json → Nat → Prop
  | number {n : Nat} : n < 2 ^ 64 → Spells (.nat n) n
  | text {s : String} {n : Nat} : NumberText s n → n < 2 ^ 64 → Spells (.string s) n

/-- a slot that is empty or holds `null`, or a number -/
inductive SpellsOptional : Option Json → Option Nat → Prop
  | absent : SpellsOptional none none
  | null : SpellsOptional (some .null) none
  | given {v : Json} {n : Nat} : Spells v n → SpellsOptional (some v) (some n)

theorem unsigned_whole_eq_some_iff {i : Int} :
    Document.unsigned 64 room (.number (some (.whole i))) = some n ↔
      i = (n : Int) ∧ n < 2 ^ 64 := by
  show (if 0 ≤ i ∧ i ≤ ((2 ^ 64 : Nat) : Int) - 1 then some i else none).map Int.toNat = some n ↔ _
  by_cases hrange : 0 ≤ i ∧ i ≤ ((2 ^ 64 : Nat) : Int) - 1
  · rw [if_pos hrange, Option.map_some, Option.some_inj]
    omega
  · rw [if_neg hrange]
    constructor
    · intro h
      cases h
    · intro h
      omega

/-- the reader takes what spells a number, and nothing else -/
theorem lenient_eq_some_iff : lenient room (Document.ofValue v) = some n ↔ Spells v n := by
  cases v with
  | number x =>
    cases x with
    | whole i =>
      show Document.unsigned 64 room (.number (some (.whole i))) = some n ↔ _
      rw [unsigned_whole_eq_some_iff]
      constructor
      · rintro ⟨rfl, hn⟩
        exact .number hn
      · rintro ⟨hn⟩
        exact ⟨rfl, hn⟩
    | double bits => exact ⟨nofun, nofun⟩
  | string s =>
    show decimal? s = some n ↔ _
    rw [decimal?_eq_some_iff]
    constructor
    · rintro ⟨htext, hn⟩
      exact .text htext hn
    · rintro (_ | ⟨htext, hn⟩)
      exact ⟨htext, hn⟩
  | null => exact ⟨nofun, nofun⟩
  | bool b => exact ⟨nofun, nofun⟩
  | array items => exact ⟨nofun, nofun⟩
  | object ms => exact ⟨nofun, nofun⟩

theorem required_lenient_eq_some_iff (room : Nat) {slot : Option Json} :
    Document.required lenient room (slot.map Document.ofValue) = some n ↔
      ∃ w, slot = some w ∧ Spells w n := by
  unfold Document.required
  rw [Option.bind_eq_some_iff]
  constructor
  · rintro ⟨d, hd, h⟩
    obtain ⟨w, hw, rfl⟩ := Option.map_eq_some_iff.1 hd
    exact ⟨w, hw, lenient_eq_some_iff.1 h⟩
  · rintro ⟨w, rfl, h⟩
    exact ⟨_, rfl, lenient_eq_some_iff.2 h⟩

theorem optional_lenient_eq_some_iff (room : Nat) {slot : Option Json} {x : Option Nat} :
    Document.defaulted (Document.optional lenient) none room (slot.map Document.ofValue) = some x ↔
      SpellsOptional slot x := by
  cases slot with
  | none =>
    constructor
    · intro h
      cases h
      exact .absent
    · intro h
      cases h
      rfl
  | some v =>
    have hgiven : v ≠ .null →
        ((lenient room (Document.ofValue v)).map some = some x ↔ SpellsOptional (some v) x) := by
      intro hv
      rw [Option.map_eq_some_iff]
      constructor
      · rintro ⟨n, hn, rfl⟩
        exact .given (lenient_eq_some_iff.1 hn)
      · intro h
        cases h with
        | null => exact absurd rfl hv
        | given h => exact ⟨_, lenient_eq_some_iff.2 h, rfl⟩
    cases v with
    | null =>
      constructor
      · intro h
        cases h
        exact .null
      · intro h
        cases h with
        | null => rfl
        | given h => cases h
    | _ => exact hgiven nofun

/-- a number and its text spell the same; neither spells anything from `2 ^ 64` on -/
theorem spells_nat_iff {m : Nat} : Spells (.nat n) m ↔ Spells (.string (toString n)) m := by
  constructor
  · rintro ⟨hn⟩
    exact .text (numberText_toString n) hn
  · rintro (_ | ⟨htext, hm⟩)
    obtain rfl := (numberText_toString n).unique htext
    exact .number hm

end LedgerClient.Rpc

namespace LedgerClient

open Rpc
open Document (Shows Optional Defaulted)

/-! ## a field that changes its form -/

namespace Json

variable {name : String} {place : Nat} {a b v v' : Json} {names : List String}

/-- `v` and `v'` are the same but for one field, which is `a` in the one and `b` in the other -/
inductive Switched (name : String) (place : Nat) (a b : Json) : Json → Json → Prop
  | member {before after : List (String × Json)} :
    Switched name place a b (.object (before ++ (name, a) :: after))
      (.object (before ++ (name, b) :: after))
  | item {before after : List Json} : before.length = place →
    Switched name place a b (.array (before ++ a :: after)) (.array (before ++ b :: after))

theorem Switched.isRecord_iff (h : Switched name place a b v v') :
    v.IsRecord names ↔ v'.IsRecord names := by
  cases h with
  | member =>
    unfold IsRecord
    simp only [List.map_append, List.map_cons]
  | item _ =>
    unfold IsRecord
    simp only [List.length_append, List.length_cons]

theorem lookup?_append (name : String) (ms ms' : List (String × Json)) :
    lookup? name (ms ++ ms') = (lookup? name ms).or (lookup? name ms') := by
  induction ms with
  | nil => rfl
  | cons m ms ih =>
    rw [List.cons_append, lookup?, lookup?]
    by_cases hname : m.1 = name
    · rw [if_pos hname, if_pos hname]
      rfl
    · rw [if_neg hname, if_neg hname, ih]

/-- the other fields stay as they are -/
theorem Switched.slot?_of_ne (h : Switched name place a b v v') (name' : String) (place' : Nat)
    (hname : name' ≠ name) (hplace : place' ≠ place) :
    v'.slot? name' place' = v.slot? name' place' := by
  cases h with
  | @member before after =>
    show lookup? name' _ = lookup? name' _
    rw [lookup?_append, lookup?_append, lookup?, lookup?, if_neg hname.symm, if_neg hname.symm]
  | @item before after hbefore =>
    show (before ++ b :: after)[place']? = (before ++ a :: after)[place']?
    subst hbefore
    rw [List.getElem?_append, List.getElem?_append]
    split
    · rfl
    · obtain ⟨k, hk⟩ : ∃ k, place' - before.length = k + 1 :=
        ⟨place' - before.length - 1, by omega⟩
      rw [hk, List.getElem?_cons_succ, List.getElem?_cons_succ]

/-- the field itself is the one before and the other after, unless a field of its name stands before
it -/
theorem Switched.slot? (h : Switched name place a b v v') :
    v'.slot? name place = v.slot? name place ∨
      v.slot? name place = some a ∧ v'.slot? name place = some b := by
  cases h with
  | @member before after =>
    show lookup? name _ = lookup? name _ ∨ lookup? name _ = some a ∧ lookup? name _ = some b
    rw [lookup?_append, lookup?_append, lookup?, lookup?, if_pos rfl, if_pos rfl]
    cases lookup? name before with
    | none => exact .inr ⟨rfl, rfl⟩
    | some w => exact .inl rfl
  | @item before after hbefore =>
    subst hbefore
    right
    simp [Json.slot?]

/-- a switch between two forms that are read the same is not seen -/
theorem Switched.slot_iff {p : Option Json → Prop} (h : Switched name place a b v v')
    (hp : p (some a) ↔ p (some b)) : p (v'.slot? name place) ↔ p (v.slot? name place) := by
  rcases h.slot? with hsame | ⟨ha, hb⟩
  · rw [hsame]
  · rw [ha, hb, hp]

/-- a node gives a number in the one form and then in the other -/
abbrev Respelled (name : String) (place n : Nat) (v v' : Json) : Prop :=
  Switched name place (.nat n) (.string (toString n)) v v'

end Json

open Json (Respelled)

variable {v v' : Json} {n : Nat} {room : Nat}

theorem Rpc.spellsOptional_nat_iff {x : Option Nat} :
    SpellsOptional (some (.nat n)) x ↔ SpellsOptional (some (.string (toString n))) x := by
  constructor
  · intro h
    cases h with
    | given h => exact .given (spells_nat_iff.1 h)
  · intro h
    cases h with
    | given h => exact .given (spells_nat_iff.2 h)

/-! ## records of one number -/

theorem BlockHeight.read_eq_some_iff :
    BlockHeight.read (room + 1) (Document.ofValue v) = some n ↔
      v.IsRecord ["height"] ∧ ∃ w, v.slot? "height" 0 = some w ∧ Spells w n := by
  rw [← required_lenient_eq_some_iff room]
  exact Document.record_ofValue_eq_some_iff (List.nodup_singleton "height")

theorem Nonce.read_eq_some_iff :
    Nonce.read (room + 1) (Document.ofValue v) = some n ↔
      v.IsRecord ["nonce"] ∧ ∃ w, v.slot? "nonce" 0 = some w ∧ Spells w n := by
  rw [← required_lenient_eq_some_iff room]
  exact Document.record_ofValue_eq_some_iff (List.nodup_singleton "nonce")

theorem Rpc.required_respelled {name : String} {place m : Nat} (h : Respelled name place m v v') :
    (∃ w, v'.slot? name place = some w ∧ Spells w n) ↔
      ∃ w, v.slot? name place = some w ∧ Spells w n := by
  refine h.slot_iff (p := fun slot => ∃ w, slot = some w ∧ Spells w n) ?_
  simp only [Option.some_inj, exists_eq_left', spells_nat_iff]

/-! ## records with a number -/

/-- the fields of a commit, in their order -/
def CommitReply.fieldNames : List String := ["check_tx", "deliver_tx", "hash", "height"]

/-- the fields of a commit beside its height -/
@[mk_iff]
structure CommitReply.Rest (room : Nat) (v : Json) (r : CommitReply) : Prop where
  check : Defaulted (Optional PhaseResult.Shown) none room
    ((v.slot? "check_tx" 0).map Document.ofValue) r.check
  deliver : Defaulted (Optional PhaseResult.Shown) none room
    ((v.slot? "deliver_tx" 1).map Document.ofValue) r.deliver
  hash : Defaulted Shows.text "" room ((v.slot? "hash" 2).map Document.ofValue) r.hash

theorem CommitReply.read_eq_some_iff {r : CommitReply} :
    CommitReply.read (room + 1) (Document.ofValue v) = some r ↔
      v.IsRecord CommitReply.fieldNames ∧ r.Rest room v ∧
        SpellsOptional (v.slot? "height" 3) r.height := by
  have hrecord : CommitReply.read (room + 1) (Document.ofValue v) = some r ↔ _ :=
    Document.record_ofValue_eq_some_iff (show CommitReply.fieldNames.Nodup by decide)
  have hphase := PhaseResult.reads.optional
  rw [hrecord, ← optional_lenient_eq_some_iff room]
  refine and_congr_right fun _ => ?_
  constructor
  · intro h
    obtain ⟨check, hcheck, h⟩ := hphase.defaulted_bind.1 h
    obtain ⟨deliver, hdeliver, h⟩ := hphase.defaulted_bind.1 h
    obtain ⟨hash, hhash, h⟩ := Document.reads_text.defaulted_bind.1 h
    obtain ⟨height, hheight, ⟨⟩⟩ := Option.bind_eq_some_iff.1 h
    exact ⟨⟨hcheck, hdeliver, hhash⟩, hheight⟩
  · rintro ⟨⟨hcheck, hdeliver, hhash⟩, hheight⟩
    refine hphase.defaulted_bind.2 ⟨_, hcheck, ?_⟩
    refine hphase.defaulted_bind.2 ⟨_, hdeliver, ?_⟩
    refine Document.reads_text.defaulted_bind.2 ⟨_, hhash, ?_⟩
    exact Option.bind_eq_some_iff.2 ⟨_, hheight, rfl⟩

/-- the fields of an answer to a query, in their order -/
def QueryResult.fieldNames : List String := ["code", "log", "key", "value", "height"]

/-- the fields of an answer beside its height -/
@[mk_iff]
structure QueryResult.Rest (room : Nat) (v : Json) (r : QueryResult) : Prop where
  code : Defaulted (Shows.unsigned 32) 0 room ((v.slot? "code" 0).map Document.ofValue) r.code
  log : Defaulted Shows.text "" room ((v.slot? "log" 1).map Document.ofValue) r.log
  key : Defaulted Shows.text "" room ((v.slot? "key" 2).map Document.ofValue) r.key
  value : Defaulted Shows.text "" room ((v.slot? "value" 3).map Document.ofValue) r.value

theorem QueryResult.read_eq_some_iff {r : QueryResult} :
    QueryResult.read (room + 1) (Document.ofValue v) = some r ↔
      v.IsRecord QueryResult.fieldNames ∧ r.Rest room v ∧
        SpellsOptional (v.slot? "height" 4) r.height := by
  have hrecord : QueryResult.read (room + 1) (Document.ofValue v) = some r ↔ _ :=
    Document.record_ofValue_eq_some_iff (show QueryResult.fieldNames.Nodup by decide)
  rw [hrecord, ← optional_lenient_eq_some_iff room]
  refine and_congr_right fun _ => ?_
  constructor
  · intro h
    obtain ⟨code, hcode, h⟩ := (Document.reads_unsigned 32).defaulted_bind.1 h
    obtain ⟨log, hlog, h⟩ := Document.reads_text.defaulted_bind.1 h
    obtain ⟨key, hkey, h⟩ := Document.reads_text.defaulted_bind.1 h
    obtain ⟨value, hvalue, h⟩ := Document.reads_text.defaulted_bind.1 h
    obtain ⟨height, hheight, ⟨⟩⟩ := Option.bind_eq_some_iff.1 h
    exact ⟨⟨hcode, hlog, hkey, hvalue⟩, hheight⟩
  · rintro ⟨⟨hcode, hlog, hkey, hvalue⟩, hheight⟩
    refine (Document.reads_unsigned 32).defaulted_bind.2 ⟨_, hcode, ?_⟩
    refine Document.reads_text.defaulted_bind.2 ⟨_, hlog, ?_⟩
    refine Document.reads_text.defaulted_bind.2 ⟨_, hkey, ?_⟩
    refine Document.reads_text.defaulted_bind.2 ⟨_, hvalue, ?_⟩
    exact Option.bind_eq_some_iff.2 ⟨_, hheight, rfl⟩

/-! ## another form, the same answer -/

theorem BlockHeight.read_respelled (h : Respelled "height" 0 n v v') :
    BlockHeight.read (room + 1) (Document.ofValue v') =
      BlockHeight.read (room + 1) (Document.ofValue v) := by
  ext m
  rw [BlockHeight.read_eq_some_iff, BlockHeight.read_eq_some_iff, h.isRecord_iff,
    required_respelled h]

theorem Nonce.read_respelled (h : Respelled "nonce" 0 n v v') :
    Nonce.read (room + 1) (Document.ofValue v') = Nonce.read (room + 1) (Document.ofValue v) := by
  ext m
  rw [Nonce.read_eq_some_iff, Nonce.read_eq_some_iff, h.isRecord_iff, required_respelled h]

theorem CommitReply.read_respelled (h : Respelled "height" 3 n v v') :
    CommitReply.read (room + 1) (Document.ofValue v') =
      CommitReply.read (room + 1) (Document.ofValue v) := by
  have hcheck := h.slot?_of_ne "check_tx" 0 (by decide) (by decide)
  have hdeliver := h.slot?_of_ne "deliver_tx" 1 (by decide) (by decide)
  have hhash := h.slot?_of_ne "hash" 2 (by decide) (by decide)
  ext r
  rw [CommitReply.read_eq_some_iff, CommitReply.read_eq_some_iff, CommitReply.rest_iff,
    CommitReply.rest_iff, hcheck, hdeliver, hhash, h.isRecord_iff,
    h.slot_iff (p := fun slot => SpellsOptional slot r.height) spellsOptional_nat_iff]

theorem QueryResult.read_respelled (h : Respelled "height" 4 n v v') :
    QueryResult.read (room + 1) (Document.ofValue v') =
      QueryResult.read (room + 1) (Document.ofValue v) := by
  have hcode := h.slot?_of_ne "code" 0 (by decide) (by decide)
  have hlog := h.slot?_of_ne "log" 1 (by decide) (by decide)
  have hkey := h.slot?_of_ne "key" 2 (by decide) (by decide)
  have hvalue := h.slot?_of_ne "value" 3 (by decide) (by decide)
  ext r
  rw [QueryResult.read_eq_some_iff, QueryResult.read_eq_some_iff, QueryResult.rest_iff,
    QueryResult.rest_iff, hcode, hlog, hkey, hvalue, h.isRecord_iff,
    h.slot_iff (p := fun slot => SpellsOptional slot r.height) spellsOptional_nat_iff]

/-- a height or nonce is read from what spells it and from nothing else, an optional height also
from `null` or its absence, and what is read does not show which form it had; `Document.readValue`
is the case of `room = 126` -/
theorem Rpc.lenient_language (room : Nat) (v : Json) :
    (∀ n, BlockHeight.read (room + 1) (Document.ofValue v) = some n ↔
      v.IsRecord ["height"] ∧ ∃ w, v.slot? "height" 0 = some w ∧ Spells w n) ∧
    (∀ n, Nonce.read (room + 1) (Document.ofValue v) = some n ↔
      v.IsRecord ["nonce"] ∧ ∃ w, v.slot? "nonce" 0 = some w ∧ Spells w n) ∧
    (∀ r, CommitReply.read (room + 1) (Document.ofValue v) = some r ↔
      v.IsRecord CommitReply.fieldNames ∧ r.Rest room v ∧
        SpellsOptional (v.slot? "height" 3) r.height) ∧
    (∀ r, QueryResult.read (room + 1) (Document.ofValue v) = some r ↔
      v.IsRecord QueryResult.fieldNames ∧ r.Rest room v ∧
        SpellsOptional (v.slot? "height" 4) r.height) ∧
    ∀ n v',
      (Respelled "height" 0 n v v' → BlockHeight.read (room + 1) (Document.ofValue v') =
        BlockHeight.read (room + 1) (Document.ofValue v)) ∧
      (Respelled "nonce" 0 n v v' → Nonce.read (room + 1) (Document.ofValue v') =
        Nonce.read (room + 1) (Document.ofValue v)) ∧
      (Respelled "height" 3 n v v' → CommitReply.read (room + 1) (Document.ofValue v') =
        CommitReply.read (room + 1) (Document.ofValue v)) ∧
      (Respelled "height" 4 n v v' → QueryResult.read (room + 1) (Document.ofValue v') =
        QueryResult.read (room + 1) (Document.ofValue v)) :=
  ⟨fun _ => BlockHeight.read_eq_some_iff, fun _ => Nonce.read_eq_some_iff,
    fun _ => CommitReply.read_eq_some_iff, fun _ => QueryResult.read_eq_some_iff,
    fun _ _ => ⟨BlockHeight.read_respelled, Nonce.read_respelled, CommitReply.read_respelled,
      QueryResult.read_respelled⟩⟩

example :
    Document.readValue BlockHeight.read (.object [("height", .string " +042\n")]) = some 42 := by
  decide

end LedgerClient
