import LedgerClient.Proofs.Envelope.Chains
import LedgerClient.Proofs.Envelope.Malleability
/-!
# One payload, one kind

A signature covers the payload and not the kind in front of it, so under the mark of the other kind
an accepted text is verified as before. What stops it is the payload: a record is a list with a
fixed number of items, and the same bytes have one number of items, whatever stands behind the last
of them.

* `Record.decode_of_other_arity`   bytes of one record are no record with another number of fields;
* `Envelope.verify_remark`         a text under the mark of another kind is verified as before;
* `Envelope.read_of_other_arity`   and then refused for its number of fields;
* `Envelope.one_kind`              both for transactions and queries.
-/

namespace LedgerClient

namespace Record

variable {α β : Type} [Record α] [Record β] {b : Bytes}

/-- what is read as a record is one list of as many items as the record has fields -/
theorem exists_items_of_decode {x : α} (h : decode b = .ok x) :
    ∃ header, Rlp.exact b = .ok header ∧ header.isList = true ∧
      (Rlp.items (b.drop header.size)).length = arity α := by
  unfold decode at h
  obtain ⟨header, hexact, h⟩ := bind_eq_ok_iff.1 h
  split at h
  · rename_i hlist
    dsimp only at h
    split at h
    · rename_i hlength
      exact ⟨header, hexact, hlist, hlength⟩
    · cases h
  · cases h

theorem decode_of_length_ne {header : Rlp.Header} (hexact : Rlp.exact b = .ok header)
    (hlist : header.isList = true)
    (hlength : (Rlp.items (b.drop header.size)).length ≠ arity β) :
    decode (α := β) b = .error .wrongListLength := by
  unfold decode
  rw [hexact, ok_bind, if_pos hlist]
  exact if_neg hlength

/-- the items are counted before any of them is read, so the number of fields alone tells -/
theorem decode_of_other_arity {x : α} (hne : arity α ≠ arity β) (h : decode b = .ok x) :
    decode (α := β) b = .error .wrongListLength := by
  obtain ⟨header, hexact, hlist, hlength⟩ := exists_items_of_decode h
  refine decode_of_length_ne hexact hlist ?_
  rw [hlength]
  exact hne

end Record

namespace Envelope

variable {P : Primitives} {c : Chain} {k k' : EnvelopeKind} {s : String} {e : Envelope}

theorem separator_not_mem_of_verify (h : verify P c k s = .ok e) : separator ∉ c.id.toList :=
  (verify_eq_ok_iff_textWith.1 h).1

/-- no signature ties a text to its kind -/
theorem verify_remark (h : verify P c k s = .ok e) :
    verify P c k' (remark (k'.mark c) s) = .ok e :=
  verify_eq_ok_iff.2 (accepted_remark (separator_not_mem_of_verify h) (verify_eq_ok_iff.1 h))

theorem exists_verify_of_read {α : Type} [Record α] {a : Address} {r : α}
    (h : read P c k s = .ok (a, r)) :
    ∃ e, verify P c k s = .ok e ∧ Record.decode e.payload = .ok r := by
  obtain ⟨payload, sig, haccepted, hr, -⟩ := read_eq_ok_iff.1 h
  exact ⟨⟨payload, sig⟩, verify_of_accepted haccepted, hr⟩

/-- a signed record of one kind is verified as the other kind, and no further -/
theorem read_of_other_arity {α β : Type} [Record α] [Record β] {a : Address} {r : α}
    (hne : Record.arity α ≠ Record.arity β) (h : read P c k s = .ok (a, r)) :
    verify P c k' (remark (k'.mark c) s) = verify P c k s ∧
    read (α := β) P c k' (remark (k'.mark c) s) = .error (.binary (.record .wrongListLength)) := by
  obtain ⟨e, hverify, hr⟩ := exists_verify_of_read h
  have hremark : verify P c k' (remark (k'.mark c) s) = .ok e := verify_remark hverify
  have hpayload : Record.decode (α := β) e.payload = .error .wrongListLength :=
    Record.decode_of_other_arity hne hr
  refine ⟨hremark.trans hverify.symm, read_eq_error_iff.2 (.inr ?_)⟩
  exact ⟨e.payload, e.signature, _, verify_eq_ok_iff.1 hremark, hpayload, rfl⟩

/-! ## transactions and queries -/

theorem arity_transaction_ne_query : Record.arity Transaction ≠ Record.arity Query := by decide

/-- no payload is a transaction and a query; so an accepted text of one kind, under the mark of the
other on the same chain, has its signature in order and is refused for its payload -/
theorem one_kind (P : Primitives) (c : Chain) :
    (∀ p (t : Transaction), Record.decode p = .ok t →
      Record.decode (α := Query) p = .error .wrongListLength) ∧
    (∀ p (q : Query), Record.decode p = .ok q →
      Record.decode (α := Transaction) p = .error .wrongListLength) ∧
    (∀ s a t, Transaction.parse P c s = .ok (a, t) →
      let s' := remark (EnvelopeKind.query.mark c) s
      verify P c .query s' = verify P c .transaction s ∧
        Query.parse P c s' = .error (.binary (.record .wrongListLength))) ∧
    ∀ s a q, Query.parse P c s = .ok (a, q) →
      let s' := remark (EnvelopeKind.transaction.mark c) s
      verify P c .transaction s' = verify P c .query s ∧
        Transaction.parse P c s' = .error (.binary (.record .wrongListLength)) :=
  ⟨fun _ _ => Record.decode_of_other_arity arity_transaction_ne_query,
    fun _ _ => Record.decode_of_other_arity arity_transaction_ne_query.symm,
    fun _ _ _ => read_of_other_arity arity_transaction_ne_query,
    fun _ _ _ => read_of_other_arity arity_transaction_ne_query.symm⟩

theorem length_balanceQuery : balanceQuery.payload.length < 2 ^ 64 := by decide +kernel

theorem parse_balanceQuery :
    Query.parse .standard ⟨"bcb"⟩ (text ⟨"bcb"⟩ .query balanceQuery) =
      .ok (Address.ofPublicKey .standard "bcb" balanceQuery.signature.publicKey,
        ⟨"/token/balance"⟩) :=
  read_text Transaction.separator_not_mem_bcb signed_balanceQuery length_balanceQuery

/-- a signed transfer shown as a query, and a signed query shown as a transfer -/
theorem one_kind_rent_balance :
    Query.parse .standard ⟨"bcb"⟩ (remark "bcb<qy>" Transaction.rentText) =
      .error (.binary (.record .wrongListLength)) ∧
    Transaction.parse .standard ⟨"bcb"⟩
      (remark "bcb<tx>" (text ⟨"bcb"⟩ .query balanceQuery)) =
      .error (.binary (.record .wrongListLength)) := by
  obtain ⟨-, -, htransaction, hquery⟩ := one_kind .standard ⟨"bcb"⟩
  exact ⟨(htransaction _ _ _ Transaction.parse_rentText).2, (hquery _ _ _ parse_balanceQuery).2⟩

end Envelope

end LedgerClient
