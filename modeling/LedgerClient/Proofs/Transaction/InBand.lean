import LedgerClient.Proofs.Envelope.Sealing
import LedgerClient.Proofs.Json.RoundTrip
import LedgerClient.Transaction.InBand
/-!
# Telling errors from envelopes

One text stands for an envelope or for an error. An error is read back from its text with its code
and its message, whatever the message holds. An envelope is never taken for an error, whatever the
chain's id looks like: it ends with a digit of base 58, and the text of an error with a brace.

* `InBandError.split_text`      an error is read back;
* `InBandError.split_of_last`   a text that ends with neither a bracket nor a blank is no error;
* `Envelope.exists_last_text`   the last character of an envelope;
* `TransactionForm.split_buildInBand`   both for what is built from a form.
-/

namespace LedgerClient

namespace InBandError

open Document

/-! ## errors -/

theorem toJson_eq (e : InBandError) :
    e.toJson = .object [("code", .int e.code.toInt), ("message", .string e.message)] := by
  have hlt : ¬ ("message" < "code") := by decide
  have hne : ¬ ("message" = "code") := by decide
  show Json.object (Json.insert "message" (.string e.message) [("code", .int e.code.toInt)]) = _
  rw [Json.insert, if_neg hlt, if_neg hne]
  rfl

theorem whole_toJson (e : InBandError) : e.toJson.Whole := by
  have hlow := e.code.le_toInt
  have hhigh := e.code.toInt_lt
  rw [toJson_eq]
  refine ⟨⟨hlow, ?_⟩, trivial, trivial⟩
  omega

theorem read_ofValue (e : InBandError) : read depthLimit (ofValue e.toJson) = some e := by
  have hlow := e.code.le_toInt
  have hhigh := e.code.toInt_lt
  have hcode : whole (-0x8000000000000000) 0x7fffffffffffffff (depthLimit - 1)
      (.number (some (.whole e.code.toInt))) = some e.code.toInt := by
    refine if_pos ⟨hlow, ?_⟩
    omega
  have hfields : fields [["code"], ["message"]] depthLimit (ofValue e.toJson) =
      some [some (.number (some (.whole e.code.toInt))), some (.string (some e.message))] := by
    rw [toJson_eq]
    rfl
  unfold read record
  rw [hfields]
  show (do
    let code ← whole (-0x8000000000000000) 0x7fffffffffffffff (depthLimit - 1)
      (.number (some (.whole e.code.toInt)))
    let message ← some e.message
    return (⟨Int64.ofInt code, message⟩ : InBandError)) = _
  rw [hcode]
  show some (⟨Int64.ofInt e.code.toInt, e.message⟩ : InBandError) = some e
  rw [Int64.ofInt_toInt]

theorem readText_text (e : InBandError) : readText read e.text = some e := by
  show (parse (sourceOfText e.toJson.text)).bind (read depthLimit) = _
  rw [parse_text (whole_toJson e), Option.bind_some, read_ofValue]

/-- an error is told from its text, whatever its message holds -/
theorem split_text (e : InBandError) : split e.text = .error e := by
  have hbrace : (Text.trimStartChars e.text.toList).head? = some '\x7b' := by
    show (Text.trimStartChars e.toJson.text.toList).head? = _
    rw [toJson_eq, Json.text, String.toList_append, String.toList_append]
    rfl
  unfold split
  rw [if_pos hbrace, readText_text]

/-- quotes and control characters of a message are escaped -/
example : (invalidParams "no \"\x1f\"").text =
    "\x7b\"code\":-32602,\"message\":\"no \\\"\\u001f\\\"\"\x7d" := by
  rfl

/-! ## other texts -/

theorem container_of_read {room : Nat} {d : Document} {e : InBandError}
    (h : read room d = some e) :
    ∃ opening closing, brackets? d = some (opening, closing) ∧
      (closing = ']' ∨ closing = '\x7d') := by
  obtain ⟨fs, hfields, -⟩ := Option.bind_eq_some_iff.1 h
  unfold fields at hfields
  split at hfields
  · cases hfields
  · exact ⟨_, _, rfl, .inr rfl⟩
  · exact ⟨_, _, rfl, .inl rfl⟩
  · cases hfields

/-- a container ends with its bracket, apart from blanks -/
theorem getLast?_container {lead inner blanks : Source} {opening closing c : Char}
    (hblanks : IsBlanks blanks)
    (h : (lead ++ some opening :: (inner ++ some closing :: blanks)).getLast? = some (some c)) :
    c = closing ∨ isBlank c = true := by
  rw [← List.cons_append, ← List.append_assoc, List.getLast?_append, List.getLast?_cons] at h
  cases hend : blanks.getLast? with
  | none =>
    rw [hend] at h
    obtain rfl : closing = c := by simpa using h
    exact .inl rfl
  | some b =>
    rw [hend] at h
    obtain rfl : b = some c := by simpa using h
    obtain ⟨x, hx, hblank⟩ := hblanks _ (List.mem_of_getLast? hend)
    obtain rfl := Option.some.inj hx
    exact .inr hblank

theorem readText_of_last {s : String} {front : List Char} {c : Char}
    (hs : s.toList = front ++ [c]) (hclose : c ≠ ']' ∧ c ≠ '\x7d') (hblank : isBlank c = false) :
    readText read s = none := by
  rw [Option.eq_none_iff_forall_ne_some]
  intro e h
  obtain ⟨d, hparse, hread⟩ := Option.bind_eq_some_iff.1 h
  obtain ⟨opening, closing, hbrackets, hbracket⟩ := container_of_read hread
  obtain ⟨lead, inner, blanks, -, hblanks, hsource⟩ :=
    (parse_eq_some_iff.1 hparse).exists_between hbrackets
  have hlast : (lead ++ some opening :: (inner ++ some closing :: blanks)).getLast? =
      some (some c) := by
    rw [← hsource, sourceOfText, hs, List.map_append]
    exact List.getLast?_concat
  rcases getLast?_container hblanks hlast with rfl | hc
  · rcases hbracket with rfl | rfl
    · exact hclose.1 rfl
    · exact hclose.2 rfl
  · rw [hblank] at hc
    cases hc

/-- no error ends with anything but a bracket, apart from blanks -/
theorem split_of_last {s : String} {front : List Char} {c : Char}
    (hs : s.toList = front ++ [c]) (hclose : c ≠ ']' ∧ c ≠ '\x7d') (hblank : isBlank c = false) :
    split s = .ok s := by
  unfold split
  split
  · rw [readText_of_last hs hclose hblank]
  · rfl

end InBandError

/-! ## envelopes -/

namespace Envelope

theorem encode_signature_ne_nil (sig : SignatureRecord) : Record.encode sig ≠ [] := by
  have hlength := Record.length_fieldBytes_le sig
  rw [SignatureRecord.length_fieldBytes] at hlength
  intro hnil
  rw [hnil] at hlength
  exact absurd hlength (by decide)

/-- an envelope ends with its signature segment -/
theorem exists_front_text (c : Chain) (k : EnvelopeKind) (e : Envelope) : ∃ front,
    (text c k e).toList = front ++ (Text.Base58.encode (Record.encode e.signature)).toList := by
  obtain ⟨front, hjoined, -⟩ := @Text.exists_front_joined separator _
    (List.cons_ne_nil (k.mark c).toList [version.toList, (Text.Base58.encode e.payload).toList,
      signerCount.toList, (Text.Base58.encode (Record.encode e.signature)).toList])
  refine ⟨front, ?_⟩
  unfold text
  rw [String.toList_ofList, hjoined]
  rfl

theorem exists_last_text (c : Chain) (k : EnvelopeKind) (e : Envelope) :
    ∃ front d, (text c k e).toList = front ++ [d] ∧ d ∈ Text.Base58.alphabet := by
  obtain ⟨front, hfront⟩ := exists_front_text c k e
  have hne := Text.Base58.encode_ne_nil (encode_signature_ne_nil e.signature)
  rw [← List.dropLast_append_getLast hne, ← List.append_assoc] at hfront
  exact ⟨_, _, hfront, Text.Base58.mem_alphabet_of_mem_encode (List.getLast_mem hne)⟩

theorem split_text (c : Chain) (k : EnvelopeKind) (e : Envelope) :
    InBandError.split (text c k e) = .ok (text c k e) := by
  obtain ⟨front, d, hlast, hd⟩ := exists_last_text c k e
  have hblank : Document.isBlank d = false := by
    rw [← Bool.not_eq_true, Document.isBlank_iff]
    rintro (rfl | rfl | rfl | rfl) <;> exact absurd hd (by decide)
  refine InBandError.split_of_last hlast ⟨?_, ?_⟩ hblank
  · rintro rfl
    exact absurd hd (by decide)
  · rintro rfl
    exact absurd hd (by decide)

end Envelope

namespace TransactionForm

/-- what is built from a form is told apart: an envelope is an envelope, a refused field is an error
with its message, and any other error stays one -/
theorem split_buildInBand (P : Primitives) (c : Chain) (f : TransactionForm) (signer : Signer)
    (key : KeyRef) :
    (∀ t, f.build P c signer key = .ok t →
      f.buildInBand P c signer key = .ok t ∧ InBandError.split t = .ok t) ∧
    (∀ e, f.build P c signer key = .error (.input e) →
      ∃ j, f.buildInBand P c signer key = .ok j ∧
        InBandError.split j = .error ⟨-32602, e.message⟩) ∧
    ∀ e, f.build P c signer key = .error e → (∀ i, e ≠ .input i) →
      f.buildInBand P c signer key = .error e := by
  unfold buildInBand
  refine ⟨?_, ?_, ?_⟩
  · intro t ht
    rw [ht]
    refine ⟨rfl, ?_⟩
    unfold build at ht
    split at ht
    · obtain ⟨sig, -, rfl⟩ := Envelope.sealRecord_eq_ok_iff.1 ht
      exact Envelope.split_text c .transaction _
    · cases ht
  · intro e he
    rw [he]
    exact ⟨_, rfl, InBandError.split_text _⟩
  · intro e he hother
    rw [he]
    split
    · rename_i i heq
      exact absurd (Except.error.inj heq) (hother i)
    · rfl

end TransactionForm

end LedgerClient
