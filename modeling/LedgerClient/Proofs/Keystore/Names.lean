import LedgerClient.Keystore.Vault
/-!
# Names of keys and of their files

* `Vault.IsKeyName`         which names keys may have; `isName_iff` says that the vault asks for this;
* `Vault.nameOf?_fileName`  a key file shows the name of its key, so no two keys share a file;
* `Vault.length_fileName`   a file name is four bytes longer;
* `KeyRing.pairwise_lt_sortedNames`, `KeyRing.mem_sortedNames`   the order of a list of names.
-/

namespace LedgerClient

namespace KeyRing

theorem mem_sortedNames {names : List String} {name : String} :
    name ∈ sortedNames names ↔ name ∈ names :=
  List.mem_mergeSort

theorem pairwise_le_sortedNames (names : List String) :
    (sortedNames names).Pairwise (fun a b => a ≤ b) := by
  have hsorted : (sortedNames names).Pairwise (fun a b => (!decide (b < a)) = true) := by
    refine List.pairwise_mergeSort (fun a b c hab hbc => ?_) (fun a b => ?_) names
    · simp only [Bool.not_eq_true', decide_eq_false_iff_not, String.not_lt] at hab hbc ⊢
      exact String.le_trans hab hbc
    · simp only [Bool.or_eq_true, Bool.not_eq_true', decide_eq_false_iff_not, String.not_lt]
      exact String.le_total a b
  refine hsorted.imp fun hab => ?_
  simpa only [Bool.not_eq_true', decide_eq_false_iff_not, String.not_lt] using hab

theorem pairwise_lt_sortedNames {names : List String} (h : names.Nodup) :
    (sortedNames names).Pairwise (fun a b => a < b) := by
  have hnodup : (sortedNames names).Nodup := (List.mergeSort_perm _ _).nodup_iff.2 h
  refine ((pairwise_le_sortedNames names).and hnodup).imp fun hab => ?_
  exact String.not_le.1 fun hba => hab.2 (String.le_antisymm hab.1 hba)

end KeyRing

namespace Vault

/-- not empty, and nothing but letters, digits, `-` and `_` -/
def IsKeyName (name : String) : Prop :=
  name.toList ≠ [] ∧ ∀ c ∈ name.toList, ('A' ≤ c ∧ c ≤ 'Z') ∨ ('a' ≤ c ∧ c ≤ 'z') ∨
    ('0' ≤ c ∧ c ≤ '9') ∨ c = '-' ∨ c = '_'

theorem isNameChar_iff {c : Char} : isNameChar c = true ↔ ('A' ≤ c ∧ c ≤ 'Z') ∨
    ('a' ≤ c ∧ c ≤ 'z') ∨ ('0' ≤ c ∧ c ≤ '9') ∨ c = '-' ∨ c = '_' := by
  show (((decide ('A' ≤ c ∧ c ≤ 'Z') || (decide ('a' ≤ c) && decide (c ≤ 'z'))) ||
    (decide ('0' ≤ c) && decide (c ≤ '9'))) || decide (c = '-') || decide (c = '_')) = true ↔ _
  simp only [Bool.or_eq_true, Bool.and_eq_true, decide_eq_true_eq, or_assoc]

theorem isName_iff {name : String} : isName name = true ↔ IsKeyName name := by
  unfold isName IsKeyName
  simp only [Bool.and_eq_true, Bool.not_eq_true', List.isEmpty_eq_false_iff, List.all_eq_true,
    isNameChar_iff]

instance (name : String) : Decidable (IsKeyName name) := decidable_of_iff _ isName_iff

theorem fileName_eq_append (name : String) : fileName name = name ++ ".wal" := by
  unfold fileName
  rw [String.ofList_append, String.ofList_toList]
  rfl

theorem length_fileName (name : String) :
    (Text.utf8 (fileName name)).length = (Text.utf8 name).length + 4 := by
  rw [fileName_eq_append, Text.utf8_append, List.length_append]
  rfl

theorem nameOf?_fileName {name : String} (h : name.toList ≠ []) :
    nameOf? (fileName name) = some name := by
  have hlist : (fileName name).toList = name.toList ++ extension := String.toList_ofList
  have hlength : (name.toList ++ extension).length - extension.length = name.toList.length := by
    rw [List.length_append, Nat.add_sub_cancel]
  unfold nameOf?
  simp only [hlist, hlength, List.take_left, List.drop_left]
  rw [if_pos ⟨h, trivial⟩, String.ofList_toList]

/-- no other file shows the name -/
theorem eq_fileName_of_nameOf? {file name : String} (h : nameOf? file = some name) :
    file = fileName name := by
  unfold nameOf? at h
  dsimp only at h
  split at h
  · rename_i hstem
    obtain rfl := Option.some_inj.1 h
    have hsplit := List.take_append_drop (file.toList.length - extension.length) file.toList
    rw [hstem.2] at hsplit
    unfold fileName
    rw [String.toList_ofList, hsplit, String.ofList_toList]
  · cases h

/-- the names that files show are the names that they are made of -/
theorem nameOf?_eq_some_iff {file name : String} :
    nameOf? file = some name ↔ name.toList ≠ [] ∧ file = fileName name := by
  constructor
  · intro h
    obtain rfl := eq_fileName_of_nameOf? h
    refine ⟨?_, rfl⟩
    intro hnil
    have hempty : name = "" := String.toList_injective hnil
    rw [hempty] at h
    exact absurd h (by decide)
  · rintro ⟨hname, rfl⟩
    exact nameOf?_fileName hname

theorem fileName_injective {name other : String} (h : fileName name = fileName other) :
    name = other := by
  have hlist := congrArg String.toList h
  unfold fileName at hlist
  rw [String.toList_ofList, String.toList_ofList] at hlist
  exact String.toList_inj.1 (List.append_cancel_right hlist)

end Vault

end LedgerClient
