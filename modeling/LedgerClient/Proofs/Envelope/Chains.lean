import LedgerClient.Proofs.Envelope.Sealing
/-!
# The same envelope on another chain

The chain stands in the first field of an envelope, and the signature covers the payload alone. The
payload names no chain apart from a destination, which is read as it is. So the first field is all
that ties an envelope to its chain: with it the envelope is refused elsewhere, and with another
mark in its place the rest passes as it did.

* `remark m s`              `s` with the first field `m`;
* `framed_remark`           a framed text stays framed under another mark;
* `read_remark`             what is read from it: the same record, from the same key;
* `misframed_of_framed`     under its own mark it is not framed anywhere else;
* `Transaction.parse_remark`   both for transactions.
-/

namespace LedgerClient

namespace Envelope

variable {P : Primitives} {c c' : Chain} {k k' : EnvelopeKind} {s m p g : String} {payload : Bytes}
  {sig : SignatureRecord}

/-- the text with another first field -/
def remark (m s : String) : String :=
  String.ofList (Text.joined separator (m.toList :: (Text.fields separator s.toList).tail))

theorem fieldsOf_remark (hm : separator ∉ m.toList) (s : String) :
    fieldsOf (remark m s) = m :: (fieldsOf s).tail := by
  have hmem : ∀ f ∈ m.toList :: (Text.fields separator s.toList).tail, separator ∉ f := by
    intro f hf
    rcases List.mem_cons.1 hf with rfl | hf
    · exact hm
    · exact Text.not_mem_of_mem_fields (List.mem_of_mem_tail hf)
  unfold fieldsOf remark
  rw [String.toList_ofList, Text.fields_joined (List.cons_ne_nil _ _) hmem, List.map_cons,
    String.ofList_toList, List.map_tail]

theorem framed_remark (hc : separator ∉ c'.id.toList) (h : Framed c k s p g) :
    Framed c' k' (remark (k'.mark c') s) p g := by
  have hm : separator ∉ (k'.mark c').toList := fun hmem => hc (separator_mem_mark_iff.1 hmem)
  unfold Framed at h ⊢
  rw [fieldsOf_remark hm, h]
  rfl

theorem carries_remark (hc : separator ∉ c'.id.toList) (h : Carries c k s payload sig) :
    Carries c' k' (remark (k'.mark c') s) payload sig := by
  obtain ⟨p, g, b, hframed, hp, hg, hsig⟩ := h
  exact ⟨p, g, b, framed_remark hc hframed, hp, hg, hsig⟩

theorem accepted_remark (hc : separator ∉ c'.id.toList) (h : Accepted P c k s payload sig) :
    Accepted P c' k' (remark (k'.mark c') s) payload sig :=
  ⟨carries_remark hc h.1, h.2⟩

theorem read_remark {α : Type} [Record α] {a : Address} {r : α} (hc : separator ∉ c'.id.toList)
    (h : read P c k s = .ok (a, r)) :
    ∃ key, a = Address.ofPublicKey P c.id key ∧
      read P c' k' (remark (k'.mark c') s) = .ok (Address.ofPublicKey P c'.id key, r) := by
  obtain ⟨payload, sig, haccepted, hr, ha⟩ := read_eq_ok_iff.1 h
  exact ⟨sig.publicKey, ha, read_eq_ok_iff.2 ⟨payload, sig, accepted_remark hc haccepted, hr, rfl⟩⟩

theorem remark_text (hc : separator ∉ c.id.toList) (e : Envelope) :
    remark (k'.mark c') (text c k e) = text c' k' e := by
  have hframed : Framed c k (text c k e) _ _ := framed_encode_iff.2 ⟨hc, text_eq_frame c k e⟩
  have hfields : (fieldsOf (text c k e)).tail.map String.toList =
      (Text.fields separator (text c k e).toList).tail := by
    unfold fieldsOf
    rw [← List.map_tail, List.map_map]
    exact (List.map_congr_left fun _ _ => String.toList_ofList).trans (List.map_id _)
  unfold remark
  rw [← hfields, hframed]
  rfl

/-! ## under its own mark -/

theorem mark_injective (k : EnvelopeKind) (h : k.mark c = k.mark c') : c = c' := by
  have hlist := congrArg String.toList h
  rw [EnvelopeKind.mark, EnvelopeKind.mark, String.toList_append, String.toList_append] at hlist
  have hid : c.id = c'.id := String.toList_injective (List.append_cancel_right hlist)
  cases c
  cases c'
  exact congrArg Chain.mk hid

theorem misframed_of_framed (hne : c ≠ c') (h : Framed c k s p g) :
    Misframed c' k s (.mark (k.mark c) (k.mark c')) :=
  .mark h fun hmark => hne (mark_injective k hmark)

theorem read_elsewhere {α : Type} [Record α] {a : Address} {r : α} (hne : c ≠ c')
    (h : read P c k s = .ok (a, r)) :
    read (α := α) P c' k s = .error (.frame (.mark (k.mark c) (k.mark c'))) := by
  obtain ⟨payload, sig, ⟨hcarries, -⟩, -⟩ := read_eq_ok_iff.1 h
  obtain ⟨p, g, b, hframed, -⟩ := hcarries
  exact read_eq_error_iff.2 (.inl (.frame (misframed_of_framed hne hframed)))

end Envelope

namespace Transaction

open Envelope

/-- a transaction is refused on another chain for its mark, and for nothing else: with the mark of
that chain the same key has signed the same transaction there -/
theorem parse_remark {P : Primitives} {A B : Chain} {s : String} {a : Address}
    {t : Transaction} (hne : A ≠ B) (hB : separator ∉ B.id.toList)
    (h : parse P A s = .ok (a, t)) :
    let mark := EnvelopeKind.transaction.mark
    parse P B s = .error (.frame (.mark (mark A) (mark B))) ∧
    ∃ key, a = Address.ofPublicKey P A.id key ∧
      parse P B (remark (mark B) s) = .ok (Address.ofPublicKey P B.id key, t) :=
  ⟨read_elsewhere hne h, read_remark hB h⟩

/-! ## a transfer on two chains -/

/-- a transfer to an account of the chain `bcb` -/
def rent : Transaction where
  nonce := 7
  gasLimit := 25000
  note := "rent"
  destination := ⟨"bcb8F2StpfR4JNRkgrzY1jDdMSwLM7L42tom"⟩
  data := Bytes.fixed 10 0xc982010085c4618200ff

def rentSignature : SignatureRecord where
  publicKey := .ofNat 32 0x6e7a1cdd29b0b78fd13af4c5598feff4ef2a97166e3ca6f2e4fbfccd80505bf1
  signature := .ofNat 64
    (0x4561954ce7306964642e3b2bf5b9e2ad4303a1adeef6221729782ed1fd69f432 * 2 ^ 256 +
      0xa1129f388b2ae2319eab0e4248dc6833471d0f56f4eccb5712b5499aa4c02200)

def rentText : String :=
  "bcb<tx>.v1.Ay2Znd9fEJZQV5Tqxy1VU3n3oMF4ZioXva12g5sjJgseBuB4pQNMTmmN1Svba4cLBUTAsrat1T8DFpJEr" ++
    ".<1>.jcHGtSBhF2BKoF5ubGJjxKXGzFRrV3AAmizYPhcv5W9RYV2ogMj7dZuQCWexT3NJYuqZA4UYAuSbJu4W4xUhBsx" ++
    "J8dsnkhFPgZxVAZsHnxeCDwoj6oVxEkAJ5DNjrR6pwXgFg372G7"

theorem rentText_eq :
    rentText = text ⟨"bcb"⟩ .transaction ⟨Record.encode rent, rentSignature⟩ := by
  decide +kernel

theorem signed_rent : Signed .standard (Record.encode rent) rentSignature := by
  apply signed_of_verify
  · decide +kernel
  · decide +kernel

theorem length_rent : (Record.encode rent).length < 2 ^ 64 := by decide +kernel

theorem read_rent {c : Chain} (hc : separator ∉ c.id.toList) :
    parse .standard c (text c .transaction ⟨Record.encode rent, rentSignature⟩) =
      .ok (Address.ofPublicKey .standard c.id rentSignature.publicKey, rent) :=
  read_text hc signed_rent length_rent

theorem separator_not_mem_bcb : separator ∉ (Chain.mk "bcb").id.toList := by decide

theorem separator_not_mem_tst : separator ∉ (Chain.mk "tst").id.toList := by decide

theorem parse_rentText : parse .standard ⟨"bcb"⟩ rentText =
    .ok (Address.ofPublicKey .standard "bcb" rentSignature.publicKey, rent) := by
  rw [rentText_eq, read_rent separator_not_mem_bcb]

/-- one signature of one transfer is good on two chains -/
theorem rent_accepted_twice :
    "bcb" ≠ "tst" ∧ separator ∉ "bcb".toList ∧ separator ∉ "tst".toList ∧
    parse .standard ⟨"bcb"⟩ rentText =
      .ok (Address.ofPublicKey .standard "bcb" rentSignature.publicKey, rent) ∧
    parse .standard ⟨"tst"⟩ (remark "tst<tx>" rentText) =
      .ok (Address.ofPublicKey .standard "tst" rentSignature.publicKey, rent) := by
  have hmark : "tst<tx>" = EnvelopeKind.transaction.mark ⟨"tst"⟩ := by decide
  refine ⟨by decide, separator_not_mem_bcb, separator_not_mem_tst, parse_rentText, ?_⟩
  rw [rentText_eq, hmark, remark_text separator_not_mem_bcb, read_rent separator_not_mem_tst]

theorem parse_remark_rent :
    parse .standard ⟨"tst"⟩ rentText = .error (.frame (.mark "bcb<tx>" "tst<tx>")) ∧
    ∃ key, Address.ofPublicKey .standard "bcb" rentSignature.publicKey =
        Address.ofPublicKey .standard "bcb" key ∧
      parse .standard ⟨"tst"⟩ (remark "tst<tx>" rentText) =
        .ok (Address.ofPublicKey .standard "tst" key, rent) := by
  have hne : Chain.mk "bcb" ≠ Chain.mk "tst" := by decide
  exact parse_remark hne separator_not_mem_tst parse_rentText

end Transaction

end LedgerClient
