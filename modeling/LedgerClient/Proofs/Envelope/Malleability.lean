import LedgerClient.Proofs.Envelope.Verification
import LedgerClient.Proofs.Record
/-!
# How many texts an envelope has

The frame and both base 58 segments have one spelling each. The signature record is a list, and
the reader of a list stops at bytes that begin no item: such a tail, in front of the list's end, is
not looked at, and no signature covers it. So the accepted texts of an envelope are its text and
the same with a tail in the signature record.

* `textWith c k e tail`   the text of an envelope with a tail in its signature record;
* `verify_eq_ok_iff_textWith`   the accepted texts of an envelope;
* `textWith_eq_text_iff`        a tail always makes another text.
-/

namespace LedgerClient.Envelope

variable {P : Primitives} {c : Chain} {k : EnvelopeKind} {s : String} {e : Envelope}

/-- the text of an envelope with a tail behind the fields of its signature record -/
def textWith (c : Chain) (k : EnvelopeKind) (e : Envelope) (tail : Bytes) : String :=
  frame c k (Text.Base58.encode e.payload)
    (Text.Base58.encode (Record.encodeWith e.signature tail))

theorem textWith_nil (c : Chain) (k : EnvelopeKind) (e : Envelope) :
    textWith c k e [] = text c k e := by
  rw [textWith, Record.encodeWith_nil]
  rfl

/-- a tail that the reader of the signature record passes over -/
def Ignored (sig : SignatureRecord) (tail : Bytes) : Prop :=
  Rlp.split? tail = none ∧ (Record.fieldBytes sig ++ tail).length < 2 ^ 64

theorem carries_iff_textWith {payload : Bytes} {sig : SignatureRecord} :
    Carries c k s payload sig ↔ separator ∉ c.id.toList ∧
      ∃ tail, Ignored sig tail ∧ s = textWith c k ⟨payload, sig⟩ tail := by
  constructor
  · rintro ⟨p, g, b, hf, hp, hg, hr⟩
    obtain ⟨tail, ht, hl, rfl⟩ := Record.decode_eq_ok_iff.1 hr
    obtain rfl := Text.Base58.encode_of_decode hp
    obtain rfl := Text.Base58.encode_of_decode hg
    obtain ⟨hc, hs⟩ := framed_encode_iff.1 hf
    exact ⟨hc, tail, ⟨ht, hl⟩, hs⟩
  · rintro ⟨hc, tail, ⟨ht, hl⟩, hs⟩
    exact ⟨_, _, _, framed_encode_iff.2 ⟨hc, hs⟩, Text.Base58.decode_encode payload,
      Text.Base58.decode_encode _, Record.decode_eq_ok_iff.2 ⟨tail, ht, hl, rfl⟩⟩

theorem verify_eq_ok_iff_textWith :
    verify P c k s = .ok e ↔ separator ∉ c.id.toList ∧ Signed P e.payload e.signature ∧
      ∃ tail, Ignored e.signature tail ∧ s = textWith c k e tail := by
  obtain ⟨payload, sig⟩ := e
  rw [verify_eq_ok_iff, Accepted, carries_iff_textWith]
  exact ⟨fun ⟨⟨hc, ht⟩, hs⟩ => ⟨hc, hs, ht⟩, fun ⟨hc, hs, ht⟩ => ⟨⟨hc, ht⟩, hs⟩⟩

theorem frame_inj {p g g' : String} (h : frame c k p g = frame c k p g') : g = g' := by
  have h' := String.ofList_injective h
  simp only [Text.joined, List.append_cancel_left_eq, List.cons.injEq, true_and] at h'
  exact String.toList_injective h'

theorem textWith_eq_text_iff {tail : Bytes} (ht : Ignored e.signature tail) :
    textWith c k e tail = text c k e ↔ tail = [] := by
  refine ⟨fun h => ?_, fun h => h ▸ textWith_nil c k e⟩
  rw [← textWith_nil] at h
  have hnil : (Record.fieldBytes e.signature ++ []).length < 2 ^ 64 := by
    rw [List.append_nil, SignatureRecord.length_fieldBytes]
    omega
  exact Record.encodeWith_inj ht.2 hnil (Text.Base58.encode_injective (frame_inj h))

/-- the accepted texts of an envelope are its text and those with an ignored tail in the signature
record; they are other texts unless the tail is empty -/
theorem accepted_texts (P : Primitives) (c : Chain) (k : EnvelopeKind) (e : Envelope) :
    (∀ s, verify P c k s = .ok e ↔ separator ∉ c.id.toList ∧ Signed P e.payload e.signature ∧
      ∃ tail, Ignored e.signature tail ∧ s = textWith c k e tail) ∧
    ∀ tail, Ignored e.signature tail → (textWith c k e tail = text c k e ↔ tail = []) :=
  ⟨fun _ => verify_eq_ok_iff_textWith, fun _ => textWith_eq_text_iff⟩

/-! ## an envelope with two texts -/

/-- a signed query for the key `/token/balance` -/
def balanceQuery : Envelope where
  payload := Record.encode (⟨"/token/balance"⟩ : Query)
  signature :=
    ⟨.ofNat 32 0x197f6b23e16c8532c6abc838facd5ea789be0c76b2920334039bfa8b3d368d61,
     .ofNat 64
      (0xbe7239c9a82afbbe080a67f432be8d1e99d4d56533dd5489d348b96a855ba45c * 2 ^ 256 +
        0x200a9ff282d9b9be02b00463f271f77fc30ad77f15aef68f50aaab24931fdb04)⟩

/-- its text, with the byte `f8` behind the signature -/
def balanceQueryText : String :=
  "bcb<qy>.v1.SdXjpeGaHDK7mKpgTP7tG4.<1>." ++
    "4F4tmRpuGAmje2nKaBeHvbgzY7GwTh7msq4JwWMKKzhYCcjk3bdTSKPci4fuw1ZjtV6BPUAF7q1b" ++
    "KWjqupguMTd3icswPYM5fejfxTxWebi8hAnnRCoAQgBDdGoXYrTmYusThgF5Lm5h"

theorem balanceQueryText_eq :
    balanceQueryText = textWith ⟨"bcb"⟩ .query balanceQuery [0xf8] := by
  decide +kernel

theorem ignored_balanceQuery {tail : Bytes} (h : Rlp.split? tail = none) (hl : tail.length ≤ 1) :
    Ignored balanceQuery.signature tail := by
  refine ⟨h, ?_⟩
  rw [List.length_append, SignatureRecord.length_fieldBytes]
  omega

theorem signed_balanceQuery :
    Signed .standard balanceQuery.payload balanceQuery.signature := by
  apply signed_of_verify
  · decide +kernel
  · decide +kernel

/-- two texts are accepted as one envelope, and only one of them is its text -/
theorem two_accepted_texts :
    verify .standard ⟨"bcb"⟩ .query balanceQueryText = .ok balanceQuery ∧
    verify .standard ⟨"bcb"⟩ .query (text ⟨"bcb"⟩ .query balanceQuery) = .ok balanceQuery ∧
    text ⟨"bcb"⟩ .query balanceQuery ≠ balanceQueryText := by
  have hc : separator ∉ (Chain.mk "bcb").id.toList := by decide
  have h8 : Ignored balanceQuery.signature [0xf8] := ignored_balanceQuery (by decide) (by decide)
  have h0 : Ignored balanceQuery.signature [] := ignored_balanceQuery (by decide) (by decide)
  refine ⟨?_, ?_, ?_⟩
  · exact verify_eq_ok_iff_textWith.2 ⟨hc, signed_balanceQuery, _, h8, balanceQueryText_eq⟩
  · exact verify_eq_ok_iff_textWith.2 ⟨hc, signed_balanceQuery, [], h0, (textWith_nil _ _ _).symm⟩
  · intro h
    rw [balanceQueryText_eq, eq_comm, textWith_eq_text_iff h8] at h
    cases h

end LedgerClient.Envelope
