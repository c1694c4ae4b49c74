import LedgerClient.Config
import LedgerClient.Keystore.Vault
import LedgerClient.Proofs.Json.RoundTrip
import LedgerClient.Proofs.Transaction.RoundTrip
/-!
# Transactions on the chain of a configuration

A configuration that is accepted may name its chain by any id but the empty one. Transactions can
be built on all these chains. Their texts are read back when the id holds no separator; on the
other chains every one of them is refused.

* `ClientConfig.parse_eq_ok_iff`    which configurations are accepted;
* `ClientConfig.exists_parse_iff`   which chain ids they can have;
* `Signer.Genuine`                  signers that sign with seeds, as rings and vaults do;
* `ClientConfig.built_on_chain`     what becomes of a transaction that is built on such a chain.
-/

namespace LedgerClient

/-! ## configurations -/

namespace ClientConfig

variable {c : ClientConfig}

structure Valid (c : ClientConfig) : Prop where
  chainId : c.chainId ≠ ""
  nodes : c.nodes ≠ []
  scheme : ∀ node ∈ c.nodes, hasScheme node = true
  timeout : c.timeoutSeconds ≠ 0
  concurrency : c.mode ≠ .race 0

theorem valid_of_validate (h : c.validate = .ok ()) : c.Valid := by
  unfold validate at h
  by_cases hid : c.chainId = ""
  · rw [if_pos hid] at h
    cases h
  by_cases hnodes : c.nodes = []
  · rw [if_neg hid, if_pos hnodes] at h
    cases h
  rw [if_neg hid, if_neg hnodes] at h
  cases hfind : c.nodes.find? (!hasScheme ·) with
  | some node =>
    rw [hfind] at h
    cases h
  | none =>
    rw [hfind] at h
    by_cases htimeout : c.timeoutSeconds = 0
    · simp only [if_pos htimeout] at h
      cases h
    by_cases hmode : c.mode = .race 0
    · simp only [if_neg htimeout, if_pos hmode] at h
      cases h
    refine ⟨hid, hnodes, fun node hnode => ?_, htimeout, hmode⟩
    have hscheme := List.find?_eq_none.1 hfind node hnode
    simpa using hscheme

theorem Valid.validate_eq (h : c.Valid) : c.validate = .ok () := by
  have hfind : c.nodes.find? (!hasScheme ·) = none :=
    List.find?_eq_none.2 fun node hnode => by simp [h.scheme node hnode]
  unfold validate
  rw [if_neg h.chainId, if_neg h.nodes, hfind]
  simp only [if_neg h.timeout, if_neg h.concurrency]

theorem parse_eq_ok_iff {text : String} :
    parse text = .ok c ↔ Document.readText read text = some c ∧ c.Valid := by
  unfold parse
  cases Document.readText read text with
  | none =>
    constructor
    · intro h
      cases h
    · rintro ⟨h, -⟩
      cases h
  | some c' =>
    show c'.validate.map (fun _ => c') = .ok c ↔ some c' = some c ∧ c.Valid
    constructor
    · intro h
      cases hvalid : c'.validate with
      | error e =>
        rw [hvalid] at h
        cases h
      | ok u =>
        rw [hvalid] at h
        cases h
        exact ⟨rfl, valid_of_validate hvalid⟩
    · rintro ⟨h, hvalid⟩
      cases h
      rw [hvalid.validate_eq]
      rfl

/-! ## chain ids -/

/-- a configuration for the chain `id`, as short as they come -/
def onChain (id : String) : ClientConfig :=
  ⟨id, ["http://localhost"], none, .insecure, defaultTimeoutSeconds, .sequential⟩

def jsonOnChain (id : String) : Json :=
  .object [("chain_id", .string id), ("nodes", .array [.string "http://localhost"]),
    ("tls", .object [("mode", .string "insecure_skip_verify")])]

theorem readText_onChain (id : String) :
    Document.readText read (jsonOnChain id).text = some (onChain id) := by
  have hwhole : (jsonOnChain id).Whole := by
    simp [jsonOnChain, Json.Whole, Json.WholeMembers, Json.WholeItems]
  unfold Document.readText
  rw [Document.parse_text hwhole]
  rfl

theorem parse_onChain {id : String} (h : id ≠ "") :
    parse (jsonOnChain id).text = .ok (onChain id) := by
  have hscheme : ∀ node ∈ ["http://localhost"], hasScheme node = true := by decide
  exact parse_eq_ok_iff.2 ⟨readText_onChain id, h, List.cons_ne_nil _ _, hscheme,
    Nat.succ_ne_zero 59, FailoverMode.noConfusion⟩

/-- every id but the empty one is that of an accepted configuration -/
theorem exists_parse_iff {id : String} :
    (∃ text c, parse text = .ok c ∧ c.chain = ⟨id⟩) ↔ id ≠ "" := by
  constructor
  · rintro ⟨text, c, h, hchain⟩ hid
    have hempty : c.chainId = "" := (congrArg Chain.id hchain).trans hid
    exact (parse_eq_ok_iff.1 h).2.chainId hempty
  · intro h
    exact ⟨_, _, parse_onChain h, rfl⟩

end ClientConfig

/-! ## signers -/

variable {P : Primitives}

/-- every signature is one that a seed makes -/
def Signer.Genuine (P : Primitives) (signer : Signer) : Prop :=
  ∀ key m sig, signer.sign key m = .ok sig → ∃ kp : Keypair, sig = kp.sign P m

theorem KeyRing.genuine_signer (P : Primitives) (r : KeyRing) : (r.signer P).Genuine P := by
  intro key m sig h
  obtain ⟨kp, -, rfl⟩ := map_eq_ok_iff.1 h
  exact ⟨kp, rfl⟩

theorem Vault.genuine_signer (P : Primitives) (d : Directory) : (signer P d).Genuine P := by
  intro key m sig h
  obtain ⟨kp, -, rfl⟩ := map_eq_ok_iff.1 h
  exact ⟨kp, rfl⟩

/-- what a genuine signer builds is the text of the transaction under a signature of some seed -/
theorem TransactionForm.build_genuine {c : Chain} {f : TransactionForm} {signer : Signer}
    {key : KeyRef} {s : String} (hsigner : signer.Genuine P)
    (h : f.build P c signer key = .ok s) :
    ∃ t, ∃ kp : Keypair, f.validate P c = .ok t ∧
      s = Envelope.text c .transaction ⟨Record.encode t, kp.sign P (Record.encode t)⟩ := by
  unfold build at h
  cases hvalid : f.validate P c with
  | error e =>
    rw [hvalid] at h
    cases h
  | ok t =>
    rw [hvalid] at h
    obtain ⟨sig, hsig, hs⟩ := Envelope.sealRecord_eq_ok_iff.1 h
    obtain ⟨kp, rfl⟩ := hsigner key (Record.encode t) sig hsig
    exact ⟨t, kp, rfl, hs⟩

namespace ClientConfig

/-- accepted configurations, and what any signer builds on their chains: it is read back when the
chain id holds no separator, and refused for its frame when it holds one -/
theorem built_on_chain (hP : P.Signs) :
    (∀ id, (∃ text c, parse text = .ok c ∧ c.chain = ⟨id⟩) ↔ id ≠ "") ∧
    ∀ text c, parse text = .ok c → ∀ signer : Signer, signer.Genuine P →
      ∀ (key : KeyRef) (f : TransactionForm) (s : String),
        f.build P c.chain signer key = .ok s →
        ∃ t, f.validate P c.chain = .ok t ∧
          ((Record.encode t).length < 2 ^ 64 → '.' ∉ c.chainId.toList →
            ∃ account, Transaction.parse P c.chain s = .ok (account, t)) ∧
          ('.' ∈ c.chainId.toList →
            ∃ fault, Transaction.parse P c.chain s = .error (.frame fault)) := by
  refine ⟨fun _ => exists_parse_iff, fun text c _ signer hsigner key f s hs => ?_⟩
  obtain ⟨t, kp, hvalid, rfl⟩ := TransactionForm.build_genuine hsigner hs
  refine ⟨t, hvalid, fun hlength hid => ?_, fun hid => ?_⟩
  · have hread := Envelope.read_text (c := c.chain) (k := .transaction) hid
      (Envelope.signed_sign hP kp (Record.encode t)) hlength
    exact ⟨_, hread⟩
  · exact Envelope.read_of_separator_mem hid _

open KeyRing (alice aliceInserts payment)

/-- a payment that is read back on the chain of a configuration -/
theorem built_on_chain_payment :
    let P := Primitives.standard.closed
    let signer := (KeyRing.ofInserts aliceInserts).signer P
    P.Signs ∧ signer.Genuine P ∧ ∃ c s account t, parse (jsonOnChain "bcb").text = .ok c ∧
      payment.build P c.chain signer ⟨"alice", "correct horse"⟩ = .ok s ∧
      Transaction.parse P c.chain s = .ok (account, t) := by
  intro P signer
  have hP : P.Signs := Primitives.standard.signs_closed
  have hsigner : signer.Genuine P := KeyRing.genuine_signer P _
  have hlast : KeyRing.LastInsert aliceInserts alice := by
    refine ⟨[_], [_], rfl, ?_⟩
    decide
  have hvalid := KeyRing.payment_valid
  have hbuild := (TransactionForm.build_eq_ok_iff (P := P) hlast).2 ⟨_, hvalid, rfl⟩
  have hparse := parse_onChain (show "bcb" ≠ "" by decide)
  obtain ⟨t, hvalid', hread, -⟩ :=
    (built_on_chain hP).2 _ _ hparse signer hsigner ⟨"alice", "correct horse"⟩ payment _ hbuild
  obtain rfl : t = KeyRing.paymentTransaction := Except.ok.inj (hvalid'.symm.trans hvalid)
  obtain ⟨account, haccount⟩ := hread KeyRing.length_encode_payment (by decide)
  exact ⟨hP, hsigner, _, _, account, _, hparse, hbuild, haccount⟩

/-- the same payment on a chain whose id holds a separator -/
def separatedPayment : TransactionForm :=
  { payment with destination := "b.cNARwhVpDeeWs33HNPYAiVZCMCqSs9Av8g" }

/-- a configuration that is accepted, and a text that is built on its chain and refused there -/
theorem separated_payment_refused :
    let P := Primitives.standard.closed
    let signer := (KeyRing.ofInserts aliceInserts).signer P
    P.Signs ∧ signer.Genuine P ∧ ∃ c s fault, parse (jsonOnChain "b.c").text = .ok c ∧
      separatedPayment.build P c.chain signer ⟨"alice", "correct horse"⟩ = .ok s ∧
      Transaction.parse P c.chain s = .error (.frame fault) := by
  intro P signer
  have hlast : KeyRing.LastInsert aliceInserts alice := by
    refine ⟨[_], [_], rfl, ?_⟩
    decide
  have hvalid : (separatedPayment.validate P ⟨"b.c"⟩).toOption.isSome = true := by
    decide +kernel
  obtain ⟨t, ht⟩ := Option.isSome_iff_exists.1 hvalid
  have hbuild := (TransactionForm.build_eq_ok_iff (P := P) hlast).2
    ⟨t, toOption_eq_some_iff.1 ht, rfl⟩
  have hid : '.' ∈ (Chain.mk "b.c").id.toList := by decide
  obtain ⟨fault, hfault⟩ := Envelope.read_of_separator_mem (P := P) (k := .transaction)
    (α := Transaction) hid _
  exact ⟨Primitives.standard.signs_closed, KeyRing.genuine_signer P _, _, _, fault,
    parse_onChain (by decide), hbuild, hfault⟩

end ClientConfig

end LedgerClient
