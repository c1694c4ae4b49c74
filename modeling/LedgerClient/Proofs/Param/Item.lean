import LedgerClient.Contract.Call
import LedgerClient.Proofs.Check
import LedgerClient.Proofs.Text.Hex
/-!
# Items written in hexadecimal

Bytes that are written as a hexadecimal item are the bytes of that item, whatever they are and
wherever the item stands; several byte strings between commas are one item of all their bytes.

* `itemBytes_hex`      one byte string;
* `itemBytes_hexes`    one or more of them.
-/

namespace LedgerClient.Param

open ParamValue Text

theorem toList_hexItem (b : Bytes) : (hexItem b).toList = hexLead ++ (Hex.encode b).toList := by
  rw [hexItem, String.toList_append]
  rfl

theorem comma_not_mem_hexLead_append {cs : List Char} (h : ',' ∉ cs) : ',' ∉ hexLead ++ cs := by
  rw [List.mem_append]
  rintro (hlead | hcs)
  · exact absurd hlead (by decide)
  · exact h hcs

theorem comma_not_mem_hexItem (b : Bytes) : ',' ∉ (hexItem b).toList := by
  rw [toList_hexItem]
  exact comma_not_mem_hexLead_append fun h =>
    absurd (Hex.digit?_of_mem_encode h) (by decide)

theorem itemBytes_hex (index : Nat) (b : Bytes) : itemBytes index (hexItem b) = .ok b := by
  unfold itemBytes
  rw [toList_hexItem, dropLead?_append]
  dsimp only
  rw [← toList_hexItem, if_neg (comma_not_mem_hexItem b), String.ofList_toList, Hex.decode_encode]

theorem pieceBytes_hex (index : Nat) (b : Bytes) :
    pieceBytes index (hexItem b).toList = .ok b := by
  unfold pieceBytes
  rw [toList_hexItem, dropLead_append, String.ofList_toList, Hex.decode_encode]

theorem piecesBytes_hexes (index : Nat) (bs : List Bytes) :
    piecesBytes index (bs.map fun b => (hexItem b).toList) = .ok bs.flatten := by
  induction bs with
  | nil => rfl
  | cons b bs ih =>
    rw [List.map_cons, piecesBytes, pieceBytes_hex, ok_bind, ih]
    rfl

theorem intercalate_eq_joined (sep : Char) (fs : List (List Char)) :
    [sep].intercalate fs = joined sep fs := by
  induction fs with
  | nil => rfl
  | cons f fs ih =>
    cases fs with
    | nil => exact List.intercalate_singleton
    | cons g gs =>
      rw [List.intercalate_cons_cons, ih, List.append_assoc]
      rfl

theorem itemBytes_hexes (index : Nat) {bs : List Bytes} (h : bs ≠ []) :
    itemBytes index (String.intercalate "," (bs.map hexItem)) = .ok bs.flatten := by
  match bs with
  | [b] =>
    -- one piece has no comma, and is read as a whole
    rw [List.map_singleton, String.intercalate_singleton, itemBytes_hex, List.flatten_singleton]
  | b :: b' :: rest =>
    have hl : (String.intercalate "," ((b :: b' :: rest).map hexItem)).toList =
        joined ',' ((b :: b' :: rest).map fun b => (hexItem b).toList) := by
      rw [String.toList_intercalate, List.map_map]
      exact intercalate_eq_joined ',' _
    have hlead : joined ',' ((b :: b' :: rest).map fun b => (hexItem b).toList) =
        hexLead ++ ((Hex.encode b).toList ++
          ',' :: joined ',' ((b' :: rest).map fun b => (hexItem b).toList)) := by
      rw [← List.append_assoc, ← toList_hexItem]
      rfl
    have hcomma : ',' ∈ (String.intercalate "," ((b :: b' :: rest).map hexItem)).toList := by
      rw [hl, hlead]
      simp
    have hdrop := dropLead?_append hexLead ((Hex.encode b).toList ++
      ',' :: joined ',' ((b' :: rest).map fun b => (hexItem b).toList))
    rw [← hlead, ← hl] at hdrop
    unfold itemBytes
    rw [hdrop]
    dsimp only
    rw [if_pos hcomma, hl, fields_joined (by simp), piecesBytes_hexes]
    intro f hf
    obtain ⟨x, -, rfl⟩ := List.mem_map.1 hf
    exact comma_not_mem_hexItem x

end LedgerClient.Param
