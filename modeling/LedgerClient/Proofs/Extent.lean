import LedgerClient.Proofs.Record
/-!
# Where a record ends

The first bytes of a record tell how long it is. So a record is read back from its own bytes, with
more behind them there are trailing bytes, and with fewer there are too few: neither is read as
another record, and the one who reads a stream of records knows where the next one begins.

* `Record.SelfDelimiting`           what a reader makes of the bytes of a record, of more and of less;
* `Record.selfDelimiting`           lawful records are self-delimiting;
* `Record.all_self_delimiting`      and these are the records of the ledger.
-/

namespace LedgerClient.Record

open Rlp

variable {α : Type} [Record α]

/-- a record is read from its bytes, and from neither more nor less -/
structure SelfDelimiting (x : α) : Prop where
  decode_encode : decode (encode x) = .ok x
  decode_longer : ∀ extra, extra ≠ [] → decode (α := α) (encode x ++ extra) = .error .trailingBytes
  decode_shorter : ∀ short, short <+: encode x → short ≠ encode x →
    decode (α := α) short = .error .tooShort

theorem decode_of_exact_error {b : Bytes} {f : Fault} (h : Rlp.exact b = .error f) :
    decode (α := α) b = .error f := by
  unfold decode
  rw [h]
  rfl

theorem single_encode {x : α} (h : (encode x).length < 2 ^ 64) : Single (encode x) :=
  ⟨_, _, .headed true (Nat.lt_of_le_of_lt (length_fieldBytes_le x) h)⟩

theorem selfDelimiting [LawfulRecord α] {x : α} (h : (encode x).length < 2 ^ 64) :
    SelfDelimiting x where
  decode_encode := decode_encode h
  decode_longer _ he := decode_of_exact_error (exact_append (single_encode h) he)
  decode_shorter _ hcut hne := decode_of_exact_error (exact_of_cut (single_encode h) hcut hne)

/-- every record whose bytes can be counted in 64 bits is read from its bytes, and from neither more
nor less -/
theorem all_self_delimiting :
    (∀ t : Transaction, (encode t).length < 2 ^ 64 → SelfDelimiting t) ∧
    (∀ q : Query, (encode q).length < 2 ^ 64 → SelfDelimiting q) ∧
    (∀ c : MethodCall, (encode c).length < 2 ^ 64 → SelfDelimiting c) ∧
    ∀ s : SignatureRecord, (encode s).length < 2 ^ 64 → SelfDelimiting s :=
  ⟨fun _ => selfDelimiting, fun _ => selfDelimiting, fun _ => selfDelimiting,
    fun _ => selfDelimiting⟩

/-- a query with so many bytes that its header has two -/
def longQuery : Query := ⟨String.ofList (List.replicate 60 'k')⟩

theorem all_self_delimiting_longQuery :
    (encode longQuery).length < 2 ^ 64 ∧ SelfDelimiting longQuery ∧
      decode (α := Query) [0xf8] = .error .tooShort := by
  have hlen : (encode longQuery).length < 2 ^ 64 := by
    decide
  have h : SelfDelimiting longQuery := all_self_delimiting.2.1 longQuery hlen
  have hcut : [0xf8] <+: encode longQuery := by
    decide
  have hne : [0xf8] ≠ encode longQuery := by
    decide
  exact ⟨hlen, h, h.decode_shorter [0xf8] hcut hne⟩

end LedgerClient.Record
