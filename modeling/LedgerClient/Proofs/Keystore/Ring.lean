import LedgerClient.Keystore.Ring
/-!
# Which key a name finds

Keys are inserted one after the other, and a name finds the last one inserted under it.

* `KeyRing.ofInserts ks`   the ring after the inserts `ks`;
* `KeyRing.LastInsert`     the last insert under a name;
* `KeyRing.unlock_last`    with its passphrase, that key is unlocked.
-/

namespace LedgerClient.KeyRing

/-- the ring after these inserts, the first one into the empty ring -/
def ofInserts (ks : List StoredKey) : KeyRing := ks.foldl insert empty

/-- `k` is inserted, and no key of its name after it -/
def LastInsert (ks : List StoredKey) (k : StoredKey) : Prop :=
  ∃ before after, ks = before ++ k :: after ∧ ∀ x ∈ after, x.name ≠ k.name

theorem find?_foldl_insert_of_ne {ks : List StoredKey} {name : String}
    (h : ∀ x ∈ ks, x.name ≠ name) (r : KeyRing) : (ks.foldl insert r).find? name = r.find? name := by
  induction ks generalizing r with
  | nil => rfl
  | cons x ks ih =>
    rw [List.foldl_cons, ih (fun y hy => h y (List.mem_cons_of_mem x hy)),
      find?_insert_of_ne (h x List.mem_cons_self)]

theorem find?_last {ks : List StoredKey} {k : StoredKey} (h : LastInsert ks k) :
    (ofInserts ks).find? k.name = some k := by
  obtain ⟨before, after, rfl, ha⟩ := h
  rw [ofInserts, List.foldl_append, List.foldl_cons, find?_foldl_insert_of_ne ha,
    find?_insert_self]

/-- the last key inserted under a name is unlocked by its passphrase -/
theorem unlock_last {ks : List StoredKey} {k : StoredKey} (h : LastInsert ks k) :
    (ofInserts ks).unlock ⟨k.name, k.passphrase⟩ = .ok k.keypair := by
  unfold unlock
  rw [find?_last h]
  exact if_pos rfl

end LedgerClient.KeyRing
