import LedgerClient.Proofs.Param.List
import LedgerClient.Proofs.Record
/-!
# How many spellings a list has

Parameter lists and records are lists of items, and the reader of a list stops at bytes that begin
no item. Every item inside has one spelling, and so has the header; but a tail that begins no item
may stand behind the last one, inside the list, and is not looked at. So a value is read from the
list of its items, from the same with such a tail, and from nothing else.

* `Rlp.PassedOver`       the tails that a reader does not look at;
* `Rlp.ReadUpToTail`     which byte strings a reader takes for a value, and which one is written;
* `Rlp.read_up_to_tail`  parameter lists and all four records are read so.
-/

namespace LedgerClient.Rlp

/-- a tail behind `items` that begins with no item; the length of the payload still has 64 bits -/
def PassedOver (items : List Bytes) (tail : Bytes) : Prop :=
  split? tail = none ∧ (items.flatten ++ tail).length < 2 ^ 64

theorem listWith_eq_list_iff {items : List Bytes} {tail : Bytes} (h : PassedOver items tail) :
    listWith items tail = list items ↔ tail = [] := by
  refine ⟨fun e => ?_, fun e => e ▸ listWith_nil items⟩
  have hlen := h.2
  have h0 : (items.flatten ++ []).length < 2 ^ 64 := by
    rw [List.length_append] at hlen
    rw [List.append_nil]
    omega
  exact listWith_inj h.2 h0 (e.trans (listWith_nil items).symm)

/-- `b` is read as `x` when it is the list of the items of `x`, with a tail that is passed over or
without, and never else; it is then what is written for `x` when there is no tail, and only then -/
structure ReadUpToTail {ε α : Type} (read : Bytes → Except ε α) (write : α → Bytes)
    (items : α → List Bytes) (b : Bytes) : Prop where
  read_iff : ∀ x, read b = .ok x ↔ ∃ tail, PassedOver (items x) tail ∧ b = listWith (items x) tail
  written_iff : ∀ x tail, PassedOver (items x) tail → b = listWith (items x) tail →
    (write x = b ↔ tail = [])

theorem readUpToTail_params (b : Bytes) :
    ReadUpToTail ParamList.decode (fun l => Param.listOf l.items) (fun l => l.items.map data) b where
  read_iff l := by
    rw [ParamList.decode_eq_ok_iff]
    exact exists_congr fun tail => and_assoc.symm
  written_iff l tail h e := by
    rw [e, eq_comm]
    exact listWith_eq_list_iff h

theorem readUpToTail_record (α : Type) [Record α] [LawfulRecord α] (b : Bytes) :
    ReadUpToTail (Record.decode (α := α)) Record.encode Record.write b where
  read_iff x := by
    rw [Record.decode_eq_ok_iff]
    exact exists_congr fun tail => and_assoc.symm
  written_iff x tail h e := by
    rw [e, eq_comm]
    exact listWith_eq_list_iff h

/-- any byte string is read as a parameter list or a record exactly when it is the list of its items
with a tail that begins no item or without, and only in the latter case is it what is written -/
theorem read_up_to_tail (b : Bytes) :
    ReadUpToTail ParamList.decode (fun l => Param.listOf l.items) (fun l => l.items.map data) b ∧
    ReadUpToTail (Record.decode (α := Transaction)) Record.encode Record.write b ∧
    ReadUpToTail (Record.decode (α := Query)) Record.encode Record.write b ∧
    ReadUpToTail (Record.decode (α := MethodCall)) Record.encode Record.write b ∧
    ReadUpToTail (Record.decode (α := SignatureRecord)) Record.encode Record.write b :=
  ⟨readUpToTail_params b, readUpToTail_record Transaction b, readUpToTail_record Query b,
    readUpToTail_record MethodCall b, readUpToTail_record SignatureRecord b⟩

/-- a list of one item, without and with a byte behind it that begins no item -/
theorem one_list_two_spellings :
    ParamList.decode [0xc1, 0x61] = .ok ⟨[[0x61]]⟩ ∧
    ParamList.decode [0xc2, 0x61, 0xf8] = .ok ⟨[[0x61]]⟩ ∧
    Param.listOf [[0x61]] ≠ [0xc2, 0x61, 0xf8] := by
  refine ⟨rfl, rfl, ?_⟩
  decide

end LedgerClient.Rlp
