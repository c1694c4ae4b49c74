import LedgerClient.Proofs.Check
import LedgerClient.Proofs.Envelope.Frame
/-!
# What passes verification

`verify` and `read` against a description of the texts that does not mention them: a text carries
a payload and a signature record, the signature is good or not, and whatever is refused is refused
for the first thing that is wrong with it. The payload is not looked into before its signature is
found good, so nothing about a badly signed payload shows in the error.

* `Carries`       the frame, both segments and the signature record are in order;
* `Accepted`      and the signature is good;
* `Refused`       the error of the first stage that is not in order;
* `verify_eq_ok_iff`, `verify_eq_error_iff`   `verify` accepts and refuses exactly these;
* `read_verifies_first`                       so does `read`, which decodes what was accepted.
-/

namespace LedgerClient.Envelope

open Text

variable {P : Primitives} {c : Chain} {k : EnvelopeKind} {s : String} {payload : Bytes}
  {sig : SignatureRecord}

/-- a text in order up to its signature record -/
def Carries (c : Chain) (k : EnvelopeKind) (s : String) (payload : Bytes)
    (sig : SignatureRecord) : Prop :=
  ∃ p g b, Framed c k s p g ∧ Base58.decode p = .ok payload ∧ Base58.decode g = .ok b ∧
    Record.decode b = .ok sig

/-- the signature is good for the payload -/
def Signed (P : Primitives) (payload : Bytes) (sig : SignatureRecord) : Prop :=
  sig.signature.check P sig.publicKey payload = .ok ()

theorem signed_of_verify (hp : P.isPoint sig.publicKey = true)
    (hv : P.verify sig.publicKey payload sig.signature = true) : Signed P payload sig := by
  rw [Signed, Signature.check, if_pos hp, if_pos hv]

/-- a text in order, with a good signature -/
def Accepted (P : Primitives) (c : Chain) (k : EnvelopeKind) (s : String) (payload : Bytes)
    (sig : SignatureRecord) : Prop :=
  Carries c k s payload sig ∧ Signed P payload sig

/-- the error of the first stage that a text fails, with every stage before it passed -/
inductive Refused (P : Primitives) (c : Chain) (k : EnvelopeKind) (s : String) :
    EnvelopeError → Prop
  | frame {f : FrameFault} : Misframed c k s f → Refused P c k s (.frame f)
  | payload {p g : String} {x : Base58.Error} :
    Framed c k s p g → Base58.decode p = .error x →
      Refused P c k s (.binary (.segment .payload x))
  | signatureSegment {p g : String} {a : Bytes} {x : Base58.Error} :
    Framed c k s p g → Base58.decode p = .ok a → Base58.decode g = .error x →
      Refused P c k s (.binary (.segment .signature x))
  | signatureRecord {p g : String} {a b : Bytes} {f : Rlp.Fault} :
    Framed c k s p g → Base58.decode p = .ok a → Base58.decode g = .ok b →
      Record.decode (α := SignatureRecord) b = .error f → Refused P c k s (.binary (.record f))
  | signature {a : Bytes} {sig : SignatureRecord} :
    Carries c k s a sig → ¬ Signed P a sig → Refused P c k s .signature

/-- the last stage -/
def checked (P : Primitives) (payload : Bytes) (sig : SignatureRecord) :
    Except EnvelopeError Envelope :=
  match sig.signature.check P sig.publicKey payload with
  | .ok () => .ok ⟨payload, sig⟩
  | .error _ => .error .signature

theorem checked_of_signed (h : Signed P payload sig) :
    checked P payload sig = .ok ⟨payload, sig⟩ := by
  rw [checked, show _ = _ from h]

theorem checked_of_not_signed (h : ¬ Signed P payload sig) :
    checked P payload sig = .error .signature := by
  unfold checked
  cases hv : sig.signature.check P sig.publicKey payload with
  | ok u => exact absurd hv h
  | error x => rfl

theorem verify_of_framed {p g : String} (h : Framed c k s p g) :
    verify P c k s = segmentBytes .payload p >>= fun a => segmentBytes .signature g >>= fun b =>
      decodeRecord b >>= fun sig => checked P a sig := by
  unfold verify
  rw [segments_of_framed h]
  rfl

theorem segmentBytes_of_ok {s : String} {b : Bytes} (h : Base58.decode s = .ok b)
    (which : Segment) : segmentBytes which s = .ok b := by
  rw [segmentBytes, h]

theorem segmentBytes_of_error {s : String} {x : Base58.Error} (h : Base58.decode s = .error x)
    (which : Segment) : segmentBytes which s = .error (.binary (.segment which x)) := by
  rw [segmentBytes, h]

theorem decodeRecord_of_ok {α : Type} [Record α] {b : Bytes} {r : α}
    (h : Record.decode b = .ok r) : decodeRecord b = .ok r := by
  rw [decodeRecord, h]

theorem decodeRecord_of_error {α : Type} [Record α] {b : Bytes} {f : Rlp.Fault}
    (h : Record.decode (α := α) b = .error f) :
    decodeRecord (α := α) b = .error (.binary (.record f)) := by
  rw [decodeRecord, h]

theorem verify_of_carries (h : Carries c k s payload sig) :
    verify P c k s = checked P payload sig := by
  obtain ⟨p, g, b, hf, hp, hg, hr⟩ := h
  rw [verify_of_framed hf, segmentBytes_of_ok hp, segmentBytes_of_ok hg, ok_bind, ok_bind,
    decodeRecord_of_ok hr, ok_bind]

theorem verify_of_accepted (h : Accepted P c k s payload sig) :
    verify P c k s = .ok ⟨payload, sig⟩ := by
  rw [verify_of_carries h.1, checked_of_signed h.2]

theorem verify_of_refused {e : EnvelopeError} (h : Refused P c k s e) :
    verify P c k s = .error e := by
  cases h with
  | frame hm =>
    unfold verify
    rw [segments_of_misframed hm]
  | payload hf hp =>
    rw [verify_of_framed hf, segmentBytes_of_error hp]
    rfl
  | signatureSegment hf hp hg =>
    rw [verify_of_framed hf, segmentBytes_of_ok hp, segmentBytes_of_error hg]
    rfl
  | signatureRecord hf hp hg hr =>
    rw [verify_of_framed hf, segmentBytes_of_ok hp, segmentBytes_of_ok hg, ok_bind, ok_bind,
      decodeRecord_of_error hr]
    rfl
  | signature hc hs => rw [verify_of_carries hc, checked_of_not_signed hs]

/-- no text is left undecided -/
theorem accepted_or_refused (P : Primitives) (c : Chain) (k : EnvelopeKind) (s : String) :
    (∃ payload sig, Accepted P c k s payload sig) ∨ ∃ e, Refused P c k s e := by
  rcases framed_or_misframed c k s with ⟨p, g, hf⟩ | ⟨f, hm⟩
  · cases hp : Base58.decode p with
    | error x => exact .inr ⟨_, .payload hf hp⟩
    | ok a =>
      cases hg : Base58.decode g with
      | error x => exact .inr ⟨_, .signatureSegment hf hp hg⟩
      | ok b =>
        cases hr : Record.decode (α := SignatureRecord) b with
        | error f => exact .inr ⟨_, .signatureRecord hf hp hg hr⟩
        | ok sig =>
          have hc : Carries c k s a sig := ⟨p, g, b, hf, hp, hg, hr⟩
          by_cases hs : Signed P a sig
          · exact .inl ⟨a, sig, hc, hs⟩
          · exact .inr ⟨_, .signature hc hs⟩
  · exact .inr ⟨_, .frame hm⟩

theorem verify_eq_ok_iff : verify P c k s = .ok ⟨payload, sig⟩ ↔ Accepted P c k s payload sig := by
  refine ⟨fun h => ?_, verify_of_accepted⟩
  -- every text is one or the other, and each of them fixes the answer
  rcases accepted_or_refused P c k s with ⟨a, g, ha⟩ | ⟨e, he⟩
  · obtain ⟨rfl, rfl⟩ : a = payload ∧ g = sig := by
      simpa using (verify_of_accepted ha).symm.trans h
    exact ha
  · cases (verify_of_refused he).symm.trans h

theorem verify_eq_error_iff {e : EnvelopeError} : verify P c k s = .error e ↔ Refused P c k s e := by
  refine ⟨fun h => ?_, verify_of_refused⟩
  rcases accepted_or_refused P c k s with ⟨a, g, ha⟩ | ⟨e', he⟩
  · cases (verify_of_accepted ha).symm.trans h
  · obtain rfl : e' = e := by simpa using (verify_of_refused he).symm.trans h
    exact he

/-! ## reading what was accepted -/

variable {α : Type} [Record α]

theorem decodeRecord_eq_ok_iff {b : Bytes} {r : α} :
    decodeRecord b = .ok r ↔ Record.decode b = .ok r := by
  unfold decodeRecord
  cases Record.decode (α := α) b <;> simp

theorem decodeRecord_eq_error_iff {b : Bytes} {e : EnvelopeError} :
    decodeRecord (α := α) b = .error e ↔
      ∃ f, Record.decode (α := α) b = .error f ∧ e = .binary (.record f) := by
  unfold decodeRecord
  cases Record.decode (α := α) b <;> simp [eq_comm]

theorem read_eq_ok_iff {a : Address} {r : α} :
    read P c k s = .ok (a, r) ↔ ∃ payload sig, Accepted P c k s payload sig ∧
      Record.decode payload = .ok r ∧ a = Address.ofPublicKey P c.id sig.publicKey := by
  unfold read
  rw [bind_eq_ok_iff]
  constructor
  · rintro ⟨⟨payload, sig⟩, hv, h⟩
    obtain ⟨r', hr, h⟩ := bind_eq_ok_iff.1 h
    obtain ⟨rfl, rfl⟩ := Prod.mk.inj (pure_eq_ok_iff.1 h)
    exact ⟨payload, sig, verify_eq_ok_iff.1 hv, decodeRecord_eq_ok_iff.1 hr, rfl⟩
  · rintro ⟨payload, sig, ha, hr, rfl⟩
    refine ⟨⟨payload, sig⟩, verify_of_accepted ha, ?_⟩
    rw [decodeRecord_of_ok hr]
    rfl

theorem read_eq_error_iff {e : EnvelopeError} :
    read (α := α) P c k s = .error e ↔ Refused P c k s e ∨ ∃ payload sig f,
      Accepted P c k s payload sig ∧ Record.decode (α := α) payload = .error f ∧
        e = .binary (.record f) := by
  unfold read
  rw [bind_eq_error_iff, verify_eq_error_iff]
  refine or_congr_right ⟨?_, ?_⟩
  · rintro ⟨⟨payload, sig⟩, hv, h⟩
    rcases bind_eq_error_iff.1 h with h | ⟨r, -, h⟩
    · obtain ⟨f, hf, rfl⟩ := decodeRecord_eq_error_iff.1 h
      exact ⟨payload, sig, f, verify_eq_ok_iff.1 hv, hf, rfl⟩
    · cases h
  · rintro ⟨payload, sig, f, ha, hf, rfl⟩
    refine ⟨⟨payload, sig⟩, verify_of_accepted ha, ?_⟩
    rw [decodeRecord_of_error hf]
    rfl

theorem read_of_not_signed (h : Carries c k s payload sig) (hs : ¬ Signed P payload sig) :
    read (α := α) P c k s = .error .signature :=
  read_eq_error_iff.2 (.inl (.signature h hs))

/-- a record is read exactly from the accepted texts that carry it; every other text is refused for
its first fault, and badly signed texts cannot be told apart by what they carry -/
theorem read_verifies_first (α : Type) [Record α] (P : Primitives) (c : Chain)
    (k : EnvelopeKind) :
    (∀ s a (r : α), read P c k s = .ok (a, r) ↔ ∃ payload sig, Accepted P c k s payload sig ∧
      Record.decode payload = .ok r ∧ a = Address.ofPublicKey P c.id sig.publicKey) ∧
    (∀ s e, read (α := α) P c k s = .error e ↔ Refused P c k s e ∨ ∃ payload sig f,
      Accepted P c k s payload sig ∧ Record.decode (α := α) payload = .error f ∧
        e = .binary (.record f)) ∧
    ∀ s t a b g h, Carries c k s a g → ¬ Signed P a g → Carries c k t b h → ¬ Signed P b h →
      read (α := α) P c k s = .error .signature ∧ read (α := α) P c k t = .error .signature :=
  ⟨fun _ _ _ => read_eq_ok_iff, fun _ _ => read_eq_error_iff,
    fun _ _ _ _ _ _ hs ha ht hb => ⟨read_of_not_signed hs ha, read_of_not_signed ht hb⟩⟩

end LedgerClient.Envelope
