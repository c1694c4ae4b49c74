import LedgerClient.Proofs.Param.List
import LedgerClient.Proofs.Record
import LedgerClient.Transaction.Form
/-!
# What passes validation

* `TransactionForm.Valid`               what every check of a form finds;
* `TransactionForm.validate_eq_ok_iff`  a form passes when every check does;
* `TransactionForm.Valid.call_eq`       the transaction's call is the form's selector and items.
-/

namespace LedgerClient.TransactionForm

variable {P : Primitives} {c : Chain} {f : TransactionForm} {t : Transaction} {sel : Selector}
  {bs : List Bytes}

/-- what the checks of a form find: the fields of the transaction, the selector and the items -/
structure Valid (P : Primitives) (c : Chain) (f : TransactionForm) (t : Transaction)
    (sel : Selector) (bs : List Bytes) : Prop where
  nonce : word? f.nonce = some t.nonce
  gasLimit : word? f.gasLimit = some t.gasLimit
  selector : Selector.parse? f.selector = some sel
  noteLength : f.note.toList.length ≤ noteLimit
  note : t.note = f.note
  destination : Address.parse P c.id f.destination = .ok t.destination
  items : Param.itemsBytes f.items = .ok bs
  data : t.data = Record.encode (⟨sel, Param.listOf bs⟩ : MethodCall)

theorem orElseError_eq_ok_iff {α ε : Type} {e : ε} {o : Option α} {a : α} :
    orElseError e o = .ok a ↔ o = some a := by
  cases o <;> simp [orElseError]

theorem orElseError_of_forall_ne {α ε : Type} {e : ε} {o : Option α} (h : ∀ a, o ≠ some a) :
    orElseError e o = .error e := by
  rw [Option.eq_none_iff_forall_ne_some.2 h]
  rfl

theorem checkNote_eq_ok_iff {note : String} :
    checkNote note = .ok () ↔ note.toList.length ≤ noteLimit := by
  show (if noteLimit < note.toList.length then _ else Except.ok ()) = _ ↔ _
  split
  · rename_i h
    exact ⟨nofun, fun h' => absurd h (Nat.not_lt.2 h')⟩
  · rename_i h
    exact ⟨fun _ => Nat.not_lt.1 h, fun _ => rfl⟩

theorem checkNote_of_lt {note : String} (h : noteLimit < note.toList.length) :
    checkNote note = .error (.noteTooLong note.toList.length noteLimit) :=
  if_pos h

theorem destinationOf_eq_ok_iff {s : String} {a : Address} :
    destinationOf P c s = .ok a ↔ Address.parse P c.id s = .ok a := by
  unfold destinationOf
  cases Address.parse P c.id s <;> simp

theorem callOf_eq_ok_iff {items : List String} {call : MethodCall} :
    callOf sel items = .ok call ↔
      ∃ bs, Param.itemsBytes items = .ok bs ∧ call = ⟨sel, Param.listOf bs⟩ := by
  unfold callOf Param.encode
  cases Param.itemsBytes items with
  | error e => exact ⟨nofun, nofun⟩
  | ok bs =>
    constructor
    · intro h
      exact ⟨bs, rfl, (Except.ok.inj h).symm⟩
    · rintro ⟨bs', hb, rfl⟩
      obtain rfl := Except.ok.inj hb
      rfl

theorem validate_eq_ok_iff : f.validate P c = .ok t ↔ ∃ sel bs, Valid P c f t sel bs := by
  unfold validate
  constructor
  · intro h
    obtain ⟨nonce, hn, h⟩ := bind_eq_ok_iff.1 h
    obtain ⟨gasLimit, hg, h⟩ := bind_eq_ok_iff.1 h
    obtain ⟨sel, hs, h⟩ := bind_eq_ok_iff.1 h
    obtain ⟨_, hnote, h⟩ := bind_eq_ok_iff.1 h
    obtain ⟨destination, hd, h⟩ := bind_eq_ok_iff.1 h
    obtain ⟨call, hcall, h⟩ := bind_eq_ok_iff.1 h
    obtain rfl := pure_eq_ok_iff.1 h
    obtain ⟨bs, hbs, rfl⟩ := callOf_eq_ok_iff.1 hcall
    exact ⟨sel, bs, orElseError_eq_ok_iff.1 hn, orElseError_eq_ok_iff.1 hg,
      orElseError_eq_ok_iff.1 hs, checkNote_eq_ok_iff.1 hnote, rfl, destinationOf_eq_ok_iff.1 hd,
      hbs, rfl⟩
  · rintro ⟨sel, bs, h⟩
    rw [orElseError_eq_ok_iff.2 h.nonce, orElseError_eq_ok_iff.2 h.gasLimit,
      orElseError_eq_ok_iff.2 h.selector, checkNote_eq_ok_iff.2 h.noteLength,
      destinationOf_eq_ok_iff.2 h.destination]
    simp only [ok_bind, callOf_eq_ok_iff.2 ⟨bs, h.items, rfl⟩]
    obtain ⟨nonce, gasLimit, note, destination, data⟩ := t
    obtain rfl := h.note
    obtain rfl := h.data
    rfl

/-- the call of a validated form is its selector and the bytes of its items -/
theorem Valid.call_eq (h : Valid P c f t sel bs) (ht : (Record.encode t).length < 2 ^ 64) :
    t.call = .ok (⟨sel, Param.listOf bs⟩, ⟨bs⟩) := by
  have hdata : t.data.length < 2 ^ 64 := Record.length_of_data_mem ht (by simp [Record.write])
  rw [h.data] at hdata
  have hparams : (Param.listOf bs).length < 2 ^ 64 :=
    Record.length_of_data_mem hdata (by simp [Record.write])
  unfold Transaction.call Envelope.decodeRecord
  rw [h.data, Record.decode_encode hdata, ok_bind, ParamList.decode_listOf hparams]
  rfl

end LedgerClient.TransactionForm
