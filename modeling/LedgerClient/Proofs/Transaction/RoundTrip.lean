import LedgerClient.Proofs.Envelope.Sealing
import LedgerClient.Proofs.Transaction.Grammar
/-!
# Built and read back

What a key ring builds is read back whole: the signer's account, every field of the transaction,
and the items of its call. Nothing is assumed about the primitives but that signatures are good.

* `TransactionForm.build_eq_ok_iff`, `Query.build_eq`   the text of a form and of a query;
* `TransactionForm.IsCallOf`       a form's selector and items make up the call of a transaction;
* `KeyRing.build_read`             both directions together.
-/

namespace LedgerClient

variable {P : Primitives} {c : Chain} {ks : List StoredKey} {k : StoredKey}

namespace TransactionForm

/-- the call of `t` is the selector that the form spells, with the bytes that its items stand for and
are encoded as, in order -/
def IsCallOf (f : TransactionForm) (t : Transaction) : Prop :=
  ∃ (sel : Selector) (l : ParamList), IsSelectorText f.selector sel.id.toNat ∧
    t.call = .ok (⟨sel, Param.listOf l.items⟩, l) ∧ List.Forall₂ Param.Stands f.items l.items ∧
    ∀ i item b, f.items[i]? = some item → l.items[i]? = some b → Param.itemBytes i item = .ok b

theorem isCallOf_of_validate {f : TransactionForm} {t : Transaction} (h : f.validate P c = .ok t)
    (ht : (Record.encode t).length < 2 ^ 64) : f.IsCallOf t := by
  obtain ⟨sel, bs, hv⟩ := validate_eq_ok_iff.1 h
  exact ⟨sel, ⟨bs⟩, Selector.parse?_eq_some_iff.1 hv.selector, hv.call_eq ht,
    Param.itemsBytes_eq_ok_iff_stands.1 hv.items,
    fun _ _ _ hi hb => Param.itemBytes_of_itemsBytes hv.items hi hb⟩

/-- a form is built when it is valid, into the text of its transaction -/
theorem build_eq_ok_iff (h : KeyRing.LastInsert ks k) {f : TransactionForm} {s : String} :
    f.build P c ((KeyRing.ofInserts ks).signer P) ⟨k.name, k.passphrase⟩ = .ok s ↔
      ∃ t, f.validate P c = .ok t ∧
        s = Envelope.text c .transaction ⟨Record.encode t, k.keypair.sign P (Record.encode t)⟩ := by
  unfold build
  cases f.validate P c with
  | error e => simp
  | ok t => simp [Envelope.sealRecord_eq_ok_iff, KeyRing.sign_last h]

end TransactionForm

theorem Query.build_eq (h : KeyRing.LastInsert ks k) {q : String} (hq : q ≠ "") :
    Query.build c q ((KeyRing.ofInserts ks).signer P) ⟨k.name, k.passphrase⟩ =
      .ok (Envelope.text c .query ⟨Record.encode (⟨q⟩ : Query),
        k.keypair.sign P (Record.encode (⟨q⟩ : Query))⟩) := by
  rw [Query.build, if_neg hq]
  exact Envelope.sealRecord_eq_ok_iff.2 ⟨_, KeyRing.sign_last h _, rfl⟩

namespace KeyRing

/-- what the last key inserted under a name builds is read back as its account and the record; on a
chain whose id holds a separator it is not framed -/
theorem build_read (hP : P.Signs) (h : LastInsert ks k) (c : Chain) :
    let signer := (ofInserts ks).signer P
    let key : KeyRef := ⟨k.name, k.passphrase⟩
    ∃ account, signer.address P c.id key = .ok account ∧
      (∀ (f : TransactionForm) (s : String), f.build P c signer key = .ok s →
        ∃ t, f.validate P c = .ok t ∧ f.Denotes t ∧
          ((Record.encode t).length < 2 ^ 64 → f.IsCallOf t ∧
            ('.' ∉ c.id.toList → Transaction.parse P c s = .ok (account, t))) ∧
          ('.' ∈ c.id.toList → ∃ fault, Transaction.parse P c s = .error (.frame fault))) ∧
      ∀ q : String, q ≠ "" → ∃ s, Query.build c q signer key = .ok s ∧
        ((Record.encode (⟨q⟩ : Query)).length < 2 ^ 64 → '.' ∉ c.id.toList →
          Query.parse P c s = .ok (account, ⟨q⟩)) ∧
        ('.' ∈ c.id.toList → ∃ fault, Query.parse P c s = .error (.frame fault)) := by
  intro signer key
  refine ⟨_, address_last h c.id, ?_, ?_⟩
  · intro f s hs
    obtain ⟨t, hv, rfl⟩ := (TransactionForm.build_eq_ok_iff h).1 hs
    have hdenotes := (TransactionForm.validate_eq_ok_iff_denotes.1 hv).2
    refine ⟨t, hv, hdenotes, fun ht => ?_, fun hc => Envelope.read_of_separator_mem hc _⟩
    refine ⟨TransactionForm.isCallOf_of_validate hv ht, fun hc => ?_⟩
    exact Envelope.read_text hc (Envelope.signed_sign hP k.keypair _) ht
  · intro q hq
    refine ⟨_, Query.build_eq h hq, fun hl hc => ?_,
      fun hc => Envelope.read_of_separator_mem hc _⟩
    exact Envelope.read_text hc (Envelope.signed_sign hP k.keypair _) hl

/-- a key, and another one of its name that is inserted first -/
def alice : StoredKey := ⟨"alice", "correct horse", ⟨.ofNat 32 1⟩⟩

def aliceInserts : List StoredKey :=
  [⟨"alice", "old", ⟨.ofNat 32 2⟩⟩, alice, ⟨"bob", "", ⟨.ofNat 32 3⟩⟩]

def payment : TransactionForm where
  nonce := "0x0A"
  gasLimit := "5208"
  note := "rent"
  destination := "bcbNARwhVpDeeWs33HNPYAiVZCMCqSs9Av8g"
  selector := "0x00a1b2c3"
  items := ["0x00ff,0x01", "plain, text", "0x"]

def paymentItems : List Bytes := [[0x00, 0xFF, 0x01], Text.utf8 "plain, text", []]

def paymentTransaction : Transaction where
  nonce := 10
  gasLimit := 21000
  note := "rent"
  destination := ⟨"bcbNARwhVpDeeWs33HNPYAiVZCMCqSs9Av8g"⟩
  data := [0xD7, 0x83, 0xA1, 0xB2, 0xC3, 0x92, 0xD1, 0x83, 0x00, 0xFF, 0x01, 0x8B] ++
    Text.utf8 "plain, text" ++ [0x80]

theorem payment_valid :
    payment.validate Primitives.standard.closed ⟨"bcb"⟩ = .ok paymentTransaction := by
  have h : (payment.validate Primitives.standard.closed ⟨"bcb"⟩).toOption =
      some paymentTransaction := by
    decide +kernel
  exact toOption_eq_some_iff.1 h

theorem length_encode_payment : (Record.encode paymentTransaction).length < 2 ^ 64 := by
  decide +kernel

theorem build_read_payment :
    let P := Primitives.standard.closed
    let signer := (ofInserts aliceInserts).signer P
    P.Signs ∧ LastInsert aliceInserts alice ∧ ∃ s account,
      payment.build P ⟨"bcb"⟩ signer ⟨"alice", "correct horse"⟩ = .ok s ∧
      Transaction.parse P ⟨"bcb"⟩ s = .ok (account, paymentTransaction) ∧
      payment.IsCallOf paymentTransaction ∧
      paymentTransaction.call =
        .ok (⟨⟨0x00A1B2C3⟩, Param.listOf paymentItems⟩, ⟨paymentItems⟩) := by
  intro P signer
  have hP : P.Signs := Primitives.standard.signs_closed
  have hlast : LastInsert aliceInserts alice := by
    refine ⟨[_], [_], rfl, ?_⟩
    decide
  obtain ⟨account, -, hform, -⟩ := build_read hP hlast ⟨"bcb"⟩
  have hbuild := (TransactionForm.build_eq_ok_iff (P := P) hlast).2 ⟨_, payment_valid, rfl⟩
  obtain ⟨t, hv, -, hread, -⟩ := hform payment _ hbuild
  obtain rfl : t = paymentTransaction := Except.ok.inj (hv.symm.trans payment_valid)
  obtain ⟨hcall, hparse⟩ := hread length_encode_payment
  have hitems : paymentTransaction.call.toOption =
      some (⟨⟨0x00A1B2C3⟩, Param.listOf paymentItems⟩, ⟨paymentItems⟩) := by
    decide +kernel
  exact ⟨hP, hlast, _, account, hbuild, hparse (by decide), hcall, toOption_eq_some_iff.1 hitems⟩

end KeyRing

end LedgerClient
