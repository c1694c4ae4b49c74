import LedgerClient.Proofs.Contract.RoundTrip
import LedgerClient.Proofs.Envelope.Sealing
import LedgerClient.Proofs.Transaction.Grammar
import LedgerClient.Transaction.Draft
/-!
# Drafts and their forms

A draft holds numbers and an address where its form holds their texts. The texts are read back, so
the two differ in one check only: a form's destination has to be in order on the active chain, a
draft's is taken as it is. On a chain where the destination is in order they are built and signed
alike, down to the error; elsewhere the draft is signed for a destination the form is refused for.

* `TransactionDraft.validate_toForm`        the form of a draft, check by check;
* `TransactionDraft.build_eq_validate_iff`  when a draft and its form are built alike;
* `TransactionDraft.same_as_form`           building and signing, for a destination in order;
* `Envelope.SealedAs`                       a text that a signer made of a transaction;
* `TransactionDraft.sealed_destinations`    which destinations are signed for, by form and by draft.
-/

namespace LedgerClient

variable {P : Primitives} {c : Chain} {signer : Signer} {key : KeyRef} {s : String}

theorem Selector.isSelectorText_hex (sel : Selector) : IsSelectorText sel.hex sel.id.toNat := by
  have hdigits := Text.Hex.decode_eq_ok_iff.1 (Text.Hex.decode_encode sel.bytes)
  refine isSelectorText_iff.2 ⟨sel.bytes, Bytes.length_fixed 4 _, ⟨_, .inl rfl, hdigits⟩, ?_⟩
  rw [bytes, Bytes.toNat_fixed]
  exact Nat.mod_eq_of_lt sel.id.toNat_lt

/-- the text of `t` that the signer makes with the key -/
def Envelope.SealedAs (c : Chain) (signer : Signer) (key : KeyRef) (t : Transaction) (s : String) :
    Prop :=
  ∃ sig, signer.sign key (Record.encode t) = .ok sig ∧
    s = Envelope.text c .transaction ⟨Record.encode t, sig⟩

namespace TransactionForm

variable {f : TransactionForm} {t : Transaction}

theorem build_eq_ok_iff_sealedAs : f.build P c signer key = .ok s ↔
    ∃ t, f.validate P c = .ok t ∧ Envelope.SealedAs c signer key t s := by
  unfold build
  cases f.validate P c with
  | error e => simp
  | ok t => simp [Envelope.sealRecord_eq_ok_iff, Envelope.SealedAs]

theorem destination_of_validate (h : f.validate P c = .ok t) :
    t.destination = ⟨f.destination⟩ ∧ Address.validate P c.id f.destination = .ok () := by
  obtain ⟨sel, bs, hv⟩ := validate_eq_ok_iff.1 h
  exact (Address.parse_eq_ok_iff.1 hv.destination).symm

end TransactionForm

namespace TransactionDraft

open TransactionForm (noteLimit checkNote destinationOf callOf word?)

variable {d : TransactionDraft} {t : Transaction}

theorem sign_eq_ok_iff : d.sign c signer key = .ok s ↔
    ∃ t, d.build = .ok t ∧ Envelope.SealedAs c signer key t s := by
  unfold sign
  cases d.build with
  | error e => simp
  | ok t => simp [Envelope.sealRecord_eq_ok_iff, Envelope.SealedAs]

theorem destination_of_build (h : d.build = .ok t) : t.destination = d.destination := by
  obtain ⟨_, -, h⟩ := bind_eq_ok_iff.1 h
  obtain ⟨call, -, h⟩ := bind_eq_ok_iff.1 h
  obtain rfl := pure_eq_ok_iff.1 h
  rfl

/-! ## building -/

/-- numbers and selector are read back from their texts; the other checks are those of the draft,
with the destination between note and items -/
theorem validate_toForm (P : Primitives) (c : Chain) (d : TransactionDraft) :
    d.toForm.validate P c = do
      checkNote d.note
      let destination ← destinationOf P c d.destination.text
      let call ← callOf d.selector d.items
      return ⟨d.nonce, d.gasLimit, d.note, destination, Record.encode call⟩ := by
  have hnonce : word? d.toForm.nonce = some d.nonce := TransactionForm.word?_hexNumeral d.nonce
  have hgas : word? d.toForm.gasLimit = some d.gasLimit :=
    TransactionForm.word?_hexNumeral d.gasLimit
  have hsel : Selector.parse? d.toForm.selector = some d.selector :=
    Selector.parse?_eq_some_iff.2 d.selector.isSelectorText_hex
  rw [TransactionForm.validate, hnonce, hgas, hsel]
  rfl

theorem validate_toForm_of_valid (h : Address.validate P c.id d.destination.text = .ok ()) :
    d.toForm.validate P c = d.build := by
  rw [validate_toForm, destinationOf, Address.parse_of_validate h]
  rfl

theorem validate_toForm_of_invalid {cause : AddressError} (hnote : checkNote d.note = .ok ())
    (h : Address.validate P c.id d.destination.text = .error cause) :
    d.toForm.validate P c = .error (.badDestination cause) := by
  rw [validate_toForm, hnote, ok_bind, destinationOf, Address.parse_of_validate_error h]
  rfl

/-- a draft looks at note and items only -/
theorem build_ne_badDestination (d : TransactionDraft) (cause : AddressError) :
    d.build ≠ .error (.badDestination cause) := by
  intro h
  rcases bind_eq_error_iff.1 h with hnote | ⟨_, -, h⟩
  · unfold checkNote at hnote
    dsimp only at hnote
    split at hnote <;> cases hnote
  · rcases bind_eq_error_iff.1 h with hcall | ⟨_, -, h⟩
    · unfold callOf at hcall
      split at hcall <;> cases hcall
    · cases h

/-- a note that is too long stops both before the destination is looked at -/
theorem build_eq_validate_iff : d.build = d.toForm.validate P c ↔
    noteLimit < d.note.toList.length ∨ Address.validate P c.id d.destination.text = .ok () := by
  by_cases hlong : noteLimit < d.note.toList.length
  · refine iff_of_true ?_ (.inl hlong)
    rw [validate_toForm, build, TransactionForm.checkNote_of_lt hlong]
    rfl
  · have hnote : checkNote d.note = .ok () :=
      TransactionForm.checkNote_eq_ok_iff.2 (Nat.not_lt.1 hlong)
    rw [or_iff_right hlong]
    constructor
    · intro h
      cases hd : Address.validate P c.id d.destination.text with
      | ok _ => rfl
      | error cause =>
        rw [validate_toForm_of_invalid hnote hd] at h
        exact absurd h (build_ne_badDestination d cause)
    · exact fun h => (validate_toForm_of_valid h).symm

theorem sign_eq_build_toForm (h : d.build = d.toForm.validate P c) (signer : Signer)
    (key : KeyRef) : d.sign c signer key = d.toForm.build P c signer key := by
  unfold sign
  rw [h]
  rfl

/-- for a destination in order a draft and its form are built and signed alike, or refused alike -/
theorem same_as_form (d : TransactionDraft)
    (h : Address.validate P c.id d.destination.text = .ok ()) :
    d.build = d.toForm.validate P c ∧
      ∀ signer key, d.sign c signer key = d.toForm.build P c signer key := by
  have hbuild : d.build = d.toForm.validate P c := build_eq_validate_iff.2 (.inr h)
  exact ⟨hbuild, sign_eq_build_toForm hbuild⟩

/-- a transfer to an account of the chain `bcb` -/
def transfer : TransactionDraft where
  nonce := 26
  gasLimit := 25000
  note := "hello"
  destination := ⟨"bcb8F2StpfR4JNRkgrzY1jDdMSwLM7L42tom"⟩
  selector := ⟨0xdeadbeef⟩
  items := ["0x0102", "plain"]

theorem transfer_destination_valid :
    Address.validate .standard "bcb" transfer.destination.text = .ok () := by
  decide +kernel

theorem transfer_same_as_form :
    Address.validate .standard "bcb" transfer.destination.text = .ok () ∧
      transfer.build = transfer.toForm.validate .standard ⟨"bcb"⟩ ∧
        ∀ signer key, transfer.sign ⟨"bcb"⟩ signer key =
          transfer.toForm.build .standard ⟨"bcb"⟩ signer key :=
  ⟨transfer_destination_valid, same_as_form (c := ⟨"bcb"⟩) transfer transfer_destination_valid⟩

/-! ## signing -/

/-- a form is signed for a destination in order on the chain; a draft for the destination it has,
which is in order exactly when its form is signed too -/
theorem sealed_destinations (P : Primitives) (c : Chain) (signer : Signer) (key : KeyRef) :
    (∀ (f : TransactionForm) (s : String), f.build P c signer key = .ok s →
      ∃ t, Envelope.SealedAs c signer key t s ∧
        Address.validate P c.id t.destination.text = .ok ()) ∧
    ∀ (d : TransactionDraft) (s : String), d.sign c signer key = .ok s →
      ∃ t, Envelope.SealedAs c signer key t s ∧ t.destination = d.destination ∧
        (Address.validate P c.id t.destination.text = .ok () ↔
          d.toForm.build P c signer key = .ok s) := by
  refine ⟨fun f s h => ?_, fun d s h => ?_⟩
  · obtain ⟨t, ht, hs⟩ := TransactionForm.build_eq_ok_iff_sealedAs.1 h
    obtain ⟨hd, hvalid⟩ := TransactionForm.destination_of_validate ht
    exact ⟨t, hs, hd ▸ hvalid⟩
  · obtain ⟨t, ht, hs⟩ := sign_eq_ok_iff.1 h
    have hdest := destination_of_build ht
    refine ⟨t, hs, hdest, ?_⟩
    rw [hdest]
    constructor
    · intro hvalid
      rw [← sign_eq_build_toForm (validate_toForm_of_valid hvalid).symm]
      exact h
    · intro hb
      obtain ⟨t', ht', -⟩ := TransactionForm.build_eq_ok_iff_sealedAs.1 hb
      exact (TransactionForm.destination_of_validate ht').2

/-- the key that the transfer is signed with -/
def transferKey : StoredKey :=
  ⟨"alice", "correct horse",
    ⟨.ofNat 32 0x2a2a2a2a2a2a2a2a2a2a2a2a2a2a2a2a2a2a2a2a2a2a2a2a2a2a2a2a2a2a2a2a⟩⟩

theorem last_transferKey : KeyRing.LastInsert [transferKey] transferKey :=
  ⟨[], [], rfl, by decide⟩

theorem transfer_built : ∃ t, transfer.build = .ok t ∧ (Record.encode t).length < 2 ^ 64 := by
  have h : transfer.build.toOption.any
      (fun t => decide ((Record.encode t).length < 2 ^ 64)) = true := by
    decide +kernel
  obtain ⟨t, ht, hl⟩ := (Option.any_eq_true _ _).1 h
  exact ⟨t, toOption_eq_some_iff.1 ht, of_decide_eq_true hl⟩

/-- whatever the chain, the transfer is signed -/
theorem transfer_signed (P : Primitives) (c : Chain) {t : Transaction}
    (ht : transfer.build = .ok t) :
    transfer.sign c ((KeyRing.ofInserts [transferKey]).signer P) ⟨"alice", "correct horse"⟩ =
      .ok (Envelope.text c .transaction
        ⟨Record.encode t, transferKey.keypair.sign P (Record.encode t)⟩) :=
  sign_eq_ok_iff.2 ⟨t, ht, _, KeyRing.sign_last last_transferKey _, rfl⟩

/-- on its own chain the transfer and its form are signed for a destination in order -/
theorem transfer_sealed_at_home :
    let signer := (KeyRing.ofInserts [transferKey]).signer .standard
    let key : KeyRef := ⟨"alice", "correct horse"⟩
    ∃ s t, transfer.sign ⟨"bcb"⟩ signer key = .ok s ∧
      transfer.toForm.build .standard ⟨"bcb"⟩ signer key = .ok s ∧
      Envelope.SealedAs ⟨"bcb"⟩ signer key t s ∧
      Address.validate .standard "bcb" t.destination.text = .ok () := by
  intro signer key
  obtain ⟨t, ht, -⟩ := transfer_built
  have hsign := transfer_signed .standard ⟨"bcb"⟩ ht
  obtain ⟨hform, hdraft⟩ := sealed_destinations .standard ⟨"bcb"⟩ signer key
  obtain ⟨t', -, hd, hiff⟩ := hdraft transfer _ hsign
  have hbuild := hiff.1 (hd ▸ transfer_destination_valid)
  obtain ⟨t'', hsealed, hvalid⟩ := hform transfer.toForm _ hbuild
  exact ⟨_, t'', hsign, hbuild, hsealed, hvalid⟩

/-- on another chain the transfer is signed all the same, and read back with its destination, which
the check of that chain refuses -/
theorem transfer_sealed_abroad :
    let P := Primitives.standard.closed
    let signer := (KeyRing.ofInserts [transferKey]).signer P
    ∃ s account t, transfer.sign ⟨"tst"⟩ signer ⟨"alice", "correct horse"⟩ = .ok s ∧
      Transaction.parse P ⟨"tst"⟩ s = .ok (account, t) ∧
      Address.validate P "tst" t.destination.text =
        .error (.otherChain "tst" "bcb8F2StpfR4JNRkgrzY1jDdMSwLM7L42tom") := by
  intro P signer
  obtain ⟨t, ht, hl⟩ := transfer_built
  have hread := Envelope.read_text (P := P) (c := ⟨"tst"⟩) (k := .transaction) (by decide)
    (Envelope.signed_sign Primitives.standard.signs_closed transferKey.keypair _) hl
  refine ⟨_, _, t, transfer_signed P ⟨"tst"⟩ ht, hread, ?_⟩
  rw [destination_of_build ht]
  rfl

end TransactionDraft

end LedgerClient
