import LedgerClient.Proofs.Envelope.Verification
import LedgerClient.Proofs.Keystore.Ring
import LedgerClient.Proofs.Record
/-!
# Sealing a record and reading it back

* `Primitives.Signs`            what a seed signs is good under its public key;
* `Envelope.read_text`          a signed record is read back from its text;
* `Envelope.read_of_separator_mem`   on a chain whose id holds a separator no text is framed;
* `KeyRing.sign_last`, `KeyRing.address_last`   the last key inserted under a name signs.
-/

namespace LedgerClient

variable {P : Primitives}

/-- what a seed signs is good under the seed's public key -/
def Primitives.Signs (P : Primitives) : Prop :=
  ∀ seed m, (P.sign seed m).check P (P.publicKey seed) m = .ok ()

open Classical in
/-- `P`, with the signatures it makes itself accepted if they are not yet -/
noncomputable def Primitives.closed (P : Primitives) : Primitives :=
  { P with
    isPoint := fun key => P.isPoint key || decide (∃ seed, key = P.publicKey seed)
    verify := fun key m s =>
      P.verify key m s || decide (∃ seed, key = P.publicKey seed ∧ s = P.sign seed m) }

open Classical in
theorem Primitives.signs_closed (P : Primitives) : P.closed.Signs := by
  intro seed m
  have hp : P.closed.isPoint (P.publicKey seed) = true :=
    Bool.or_eq_true_iff.2 (.inr (decide_eq_true ⟨seed, rfl⟩))
  have hv : P.closed.verify (P.publicKey seed) m (P.sign seed m) = true :=
    Bool.or_eq_true_iff.2 (.inr (decide_eq_true ⟨seed, rfl, rfl⟩))
  exact @Envelope.signed_of_verify P.closed m ⟨P.publicKey seed, P.sign seed m⟩ hp hv

namespace Envelope

variable {c : Chain} {k : EnvelopeKind}

theorem signed_sign (hP : P.Signs) (kp : Keypair) (m : Bytes) : Signed P m (kp.sign P m) :=
  hP kp.seed m

theorem carries_text (hc : separator ∉ c.id.toList) (e : Envelope) :
    Carries c k (text c k e) e.payload e.signature :=
  ⟨_, _, _, framed_encode_iff.2 ⟨hc, text_eq_frame c k e⟩, Text.Base58.decode_encode _,
    Text.Base58.decode_encode _, e.signature.decode_encode⟩

theorem misframed_of_separator_mem (hc : separator ∈ c.id.toList) (s : String) :
    ∃ f, Misframed c k s f := by
  rcases framed_or_misframed c k s with ⟨p, g, hf⟩ | h
  · exact absurd (separator_mem_mark_iff.2 hc) (framed_iff.1 hf).2.1
  · exact h

variable {α : Type} [Record α]

theorem read_text [LawfulRecord α] {r : α} {sig : SignatureRecord} (hc : separator ∉ c.id.toList)
    (hs : Signed P (Record.encode r) sig) (hr : (Record.encode r).length < 2 ^ 64) :
    read P c k (text c k ⟨Record.encode r, sig⟩) =
      .ok (Address.ofPublicKey P c.id sig.publicKey, r) :=
  read_eq_ok_iff.2 ⟨_, sig, ⟨carries_text hc ⟨_, sig⟩, hs⟩, Record.decode_encode hr, rfl⟩

/-- on a chain whose id holds a separator no text is framed -/
theorem read_of_separator_mem (hc : separator ∈ c.id.toList) (s : String) :
    ∃ f, read (α := α) P c k s = .error (.frame f) := by
  obtain ⟨f, hf⟩ := misframed_of_separator_mem (k := k) hc s
  exact ⟨f, read_eq_error_iff.2 (.inl (.frame hf))⟩

theorem sealRecord_eq_ok_iff {r : α} {signer : Signer} {key : KeyRef} {s : String} :
    sealRecord c k r signer key = .ok s ↔
      ∃ sig, signer.sign key (Record.encode r) = .ok sig ∧
        s = text c k ⟨Record.encode r, sig⟩ := by
  unfold sealRecord
  dsimp only
  cases signer.sign key (Record.encode r) with
  | error e => simp
  | ok sig => simp [eq_comm]

theorem sealRecord_eq_error_iff {r : α} {signer : Signer} {key : KeyRef} {e : EnvelopeError} :
    sealRecord c k r signer key = .error e ↔
      ∃ cause, signer.sign key (Record.encode r) = .error cause ∧ e = .signing cause := by
  unfold sealRecord
  dsimp only
  cases signer.sign key (Record.encode r) with
  | error cause => simp [eq_comm]
  | ok sig => simp

end Envelope

namespace KeyRing

variable {ks : List StoredKey} {k : StoredKey}

/-- the last key inserted under a name signs for it -/
theorem sign_last (h : LastInsert ks k) (m : Bytes) :
    ((ofInserts ks).signer P).sign ⟨k.name, k.passphrase⟩ m = .ok (k.keypair.sign P m) := by
  show ((ofInserts ks).unlock _).map _ = _
  rw [unlock_last h]
  rfl

theorem address_last (h : LastInsert ks k) (chainId : String) :
    ((ofInserts ks).signer P).address P chainId ⟨k.name, k.passphrase⟩ =
      .ok (Address.ofPublicKey P chainId (k.keypair.publicKey P)) := by
  show (((ofInserts ks).unlock _).map _).map _ = _
  rw [unlock_last h]
  rfl

end KeyRing

end LedgerClient
