import LedgerClient.Json.Fields
/-!
# The fields of records

A record is read from an object by the names of its members, or from an array by the places of its
items. This is told for documents, and for values that are at hand.

* `Document.given`              what an object gives under some names;
* `Document.slot?`              what stands in a field;
* `Document.IsRecord`           an object that gives no field twice, or an array with no item too many;
* `Document.record_eq_some_iff` a record is read from what stands in its fields;
* `Json.slot?`, `Json.IsRecord` the same of a value;
* `Document.record_ofValue_eq_some_iff`   and how a record is read from one.
-/

namespace LedgerClient.Document

/-! ## the fields of an object -/

/-- what an object gives under some names, in order -/
def given (names : List String) (ms : List (Option String × Document)) : List Document :=
  ms.filterMap fun m => m.1.bind fun name => if name ∈ names then some m.2 else none

variable {known : List (List String)} {done ms : List (Option String × Document)}
  {name : String} {d : Document} {names : List String}

theorem given_append (names : List String) (done ms : List (Option String × Document)) :
    given names (done ++ ms) = given names done ++ given names ms :=
  List.filterMap_append

theorem given_append_of_mem (h : name ∈ names) :
    given names (done ++ [(some name, d)]) = given names done ++ [d] := by
  rw [given_append]
  simp [given, h]

theorem given_append_of_not_mem (h : name ∉ names) :
    given names (done ++ [(some name, d)]) = given names done := by
  rw [given_append]
  simp [given, h]

/-- a member finds its slot empty and goes there; the other slots stay as they are -/
theorem place_given_iff {slots : List (Option Document)}
    (hdisjoint : known.Pairwise fun a b => ∀ n ∈ a, n ∉ b) :
    place name d known (known.map fun names => (given names done).head?) = some slots ↔
      (∀ names ∈ known, name ∈ names → given names done = []) ∧
      slots = known.map fun names => (given names (done ++ [(some name, d)])).head? := by
  induction known generalizing slots with
  | nil =>
    constructor
    · intro h
      cases h
      exact ⟨fun _ h => absurd h List.not_mem_nil, rfl⟩
    · rintro ⟨-, rfl⟩
      rfl
  | cons names rest ih =>
    obtain ⟨hfirst, hrest⟩ := List.pairwise_cons.1 hdisjoint
    show (if name ∈ names then _ else _ : Option (List (Option Document))) = some slots ↔ _
    dsimp only
    rw [List.forall_mem_cons, List.map_cons]
    by_cases hmem : name ∈ names
    · have hothers : rest.map (fun names => (given names (done ++ [(some name, d)])).head?) =
          rest.map fun names => (given names done).head? :=
        List.map_congr_left fun other hother =>
          congrArg List.head? (given_append_of_not_mem (hfirst other hother name hmem))
      have hnone : ∀ other ∈ rest, name ∈ other → given other done = [] :=
        fun other hother hname => absurd hname (hfirst other hother name hmem)
      rw [if_pos hmem, hothers, given_append_of_mem hmem]
      cases given names done with
      | nil =>
        constructor
        · intro h
          cases h
          exact ⟨⟨fun _ => rfl, hnone⟩, rfl⟩
        · rintro ⟨-, rfl⟩
          rfl
      | cons x xs =>
        constructor
        · intro h
          cases h
        · rintro ⟨⟨h, -⟩, -⟩
          cases h hmem
    · rw [if_neg hmem, Option.map_eq_some_iff, given_append_of_not_mem hmem]
      constructor
      · rintro ⟨slots', hslots', rfl⟩
        obtain ⟨hempty, rfl⟩ := (ih hrest).1 hslots'
        exact ⟨⟨fun h => absurd h hmem, hempty⟩, rfl⟩
      · rintro ⟨⟨-, hempty⟩, rfl⟩
        exact ⟨_, (ih hrest).2 ⟨hempty, rfl⟩, rfl⟩

/-- induction on the members; `done` are those that have their slots already -/
theorem placeAll_given_iff {slots : List (Option Document)}
    (hdisjoint : known.Pairwise fun a b => ∀ n ∈ a, n ∉ b)
    (hdone : ∀ names ∈ known, (given names done).length ≤ 1) :
    placeAll known ms (known.map fun names => (given names done).head?) = some slots ↔
      (∀ m ∈ ms, m.1 ≠ none) ∧ (∀ names ∈ known, (given names (done ++ ms)).length ≤ 1) ∧
      slots = known.map fun names => (given names (done ++ ms)).head? := by
  induction ms generalizing done slots with
  | nil =>
    rw [List.append_nil]
    constructor
    · intro h
      cases h
      exact ⟨fun _ h => absurd h List.not_mem_nil, hdone, rfl⟩
    · rintro ⟨-, -, rfl⟩
      rfl
  | cons m ms ih =>
    obtain ⟨name, d⟩ := m
    rw [List.forall_mem_cons]
    cases name with
    | none =>
      constructor
      · intro h
        cases h
      · rintro ⟨⟨h, -⟩, -⟩
        exact absurd rfl h
    | some name =>
      have hsplit : done ++ (some name, d) :: ms = (done ++ [(some name, d)]) ++ ms := by
        rw [List.append_assoc]
        rfl
      rw [placeAll, Option.bind_eq_some_iff, hsplit]
      constructor
      · rintro ⟨slots', hplace, hslots⟩
        obtain ⟨hempty, rfl⟩ := (place_given_iff hdisjoint).1 hplace
        have hnext : ∀ names ∈ known, (given names (done ++ [(some name, d)])).length ≤ 1 := by
          intro names hknown
          by_cases hmem : name ∈ names
          · rw [given_append_of_mem hmem, hempty names hknown hmem]
            exact Nat.le_refl 1
          · rw [given_append_of_not_mem hmem]
            exact hdone names hknown
        obtain ⟨hnames, hrest⟩ := (ih hnext).1 hslots
        exact ⟨⟨Option.some_ne_none name, hnames⟩, hrest⟩
      · rintro ⟨⟨-, hnames⟩, hone, hslots⟩
        have hprefix : ∀ names ∈ known, (given names (done ++ [(some name, d)])).length ≤ 1 := by
          intro names hknown
          have hlength := hone names hknown
          rw [given_append, List.length_append] at hlength
          exact Nat.le_trans (Nat.le_add_right _ _) hlength
        have hempty : ∀ names ∈ known, name ∈ names → given names done = [] := by
          intro names hknown hmem
          have hlength := hprefix names hknown
          rw [given_append_of_mem hmem, List.length_append, List.length_singleton] at hlength
          exact List.eq_nil_of_length_eq_zero (Nat.le_zero.1 (Nat.le_of_succ_le_succ hlength))
        exact ⟨_, (place_given_iff hdisjoint).2 ⟨hempty, rfl⟩,
          (ih hprefix).2 ⟨hnames, hone, hslots⟩⟩

/-- an object has fields when it gives none of them twice, and then they are what it gives -/
theorem fields_object_iff {room : Nat} {slots : List (Option Document)}
    (hdisjoint : known.Pairwise fun a b => ∀ n ∈ a, n ∉ b) :
    fields known (room + 1) (.object ms) = some slots ↔
      (∀ m ∈ ms, m.1 ≠ none) ∧ (∀ names ∈ known, (given names ms).length ≤ 1) ∧
      slots = known.map fun names => (given names ms).head? := by
  show placeAll known ms (known.map fun names => (given names []).head?) = some slots ↔ _
  exact placeAll_given_iff hdisjoint fun _ _ => Nat.zero_le 1

/-! ## what stands in a field -/

/-- what an object gives under the names of a field, or what an array has in its place -/
def slot? (names : List String) (place : Nat) : Document → Option Document
  | .object ms => (given names ms).head?
  | .array items => items[place]?
  | _ => none

/-- an object that gives none of the fields twice, or an array of no more items than fields -/
def IsRecord (known : List (List String)) : Document → Prop
  | .object ms => (∀ m ∈ ms, m.1 ≠ none) ∧ ∀ names ∈ known, (given names ms).length ≤ 1
  | .array items => items.length ≤ known.length
  | _ => False

/-- what stands in every field -/
def slots (known : List (List String)) (d : Document) : List (Option Document) :=
  known.zipIdx.map fun x => d.slot? x.1 x.2

theorem slots_object (known : List (List String)) (ms : List (Option String × Document)) :
    slots known (.object ms) = known.map fun names => (given names ms).head? := by
  conv => rhs; rw [← List.zipIdx_map_fst 0 known, List.map_map]
  rfl

/-- items fill the places of a record from the first on -/
theorem slots_array {items : List Document} (hle : items.length ≤ known.length) :
    slots known (.array items) =
      items.map some ++ List.replicate (known.length - items.length) none := by
  refine List.ext_getElem? fun i => ?_
  unfold slots
  rw [List.getElem?_append, List.getElem?_map, List.getElem?_map, List.getElem?_replicate,
    List.getElem?_zipIdx, List.length_map]
  by_cases hitem : i < items.length
  · have hknown : i < known.length := Nat.lt_of_lt_of_le hitem hle
    simp [hitem, hknown, slot?]
  · by_cases hknown : i < known.length
    · have hroom : i - items.length < known.length - items.length := by omega
      simp [hitem, hknown, hroom, slot?]
    · have hroom : ¬ i - items.length < known.length - items.length := by omega
      simp [hitem, hknown, hroom]

/-- the fields of a record are what stands in them -/
theorem fields_eq_some_iff {room : Nat} {found : List (Option Document)}
    (hdisjoint : known.Pairwise fun a b => ∀ n ∈ a, n ∉ b) :
    fields known (room + 1) d = some found ↔ d.IsRecord known ∧ found = d.slots known := by
  cases d with
  | object ms =>
    rw [fields_object_iff hdisjoint, slots_object]
    exact and_assoc.symm
  | array items =>
    show (if items.length ≤ known.length then some _ else none) = some found ↔
      items.length ≤ known.length ∧ found = _
    by_cases hle : items.length ≤ known.length
    · rw [if_pos hle, Option.some_inj, and_iff_right hle, slots_array hle, eq_comm]
    · rw [if_neg hle]
      exact ⟨nofun, fun h => absurd h.1 hle⟩
  | null => exact ⟨nofun, fun h => h.1.elim⟩
  | bool b => exact ⟨nofun, fun h => h.1.elim⟩
  | number n => exact ⟨nofun, fun h => h.1.elim⟩
  | string s => exact ⟨nofun, fun h => h.1.elim⟩

/-- a record takes one level, and is read from what stands in its fields -/
theorem record_eq_some_iff {α : Type} {build : Nat → List (Option Document) → Option α}
    {room : Nat} {a : α} (hdisjoint : known.Pairwise fun a b => ∀ n ∈ a, n ∉ b) :
    record known build room d = some a ↔
      0 < room ∧ d.IsRecord known ∧ build (room - 1) (d.slots known) = some a := by
  unfold record
  cases room with
  | zero =>
    cases d <;> exact ⟨nofun, fun h => absurd h.1 (Nat.lt_irrefl 0)⟩
  | succ room =>
    rw [Option.bind_eq_some_iff, and_iff_right (Nat.succ_pos room)]
    constructor
    · rintro ⟨found, hfound, hbuild⟩
      obtain ⟨hrecord, rfl⟩ := (fields_eq_some_iff hdisjoint).1 hfound
      exact ⟨hrecord, hbuild⟩
    · rintro ⟨hrecord, hbuild⟩
      exact ⟨_, (fields_eq_some_iff hdisjoint).2 ⟨hrecord, rfl⟩, hbuild⟩

end LedgerClient.Document

namespace LedgerClient

/-! ## the fields of a value -/

/-- the member of a name, or the item in a place -/
def Json.slot? (name : String) (place : Nat) : Json → Option Json
  | .object ms => Json.lookup? name ms
  | .array items => items[place]?
  | _ => none

/-- an object that gives none of the names twice, or an array of no more items than names -/
def Json.IsRecord (names : List String) : Json → Prop
  | .object ms => ∀ name ∈ names, (ms.map Prod.fst).count name ≤ 1
  | .array items => items.length ≤ names.length
  | _ => False

namespace Document

theorem ofValues_eq_map (vs : List Json) : ofValues vs = vs.map ofValue := by
  induction vs with
  | nil => rfl
  | cons v vs ih =>
    rw [List.map_cons, ← ih]
    rfl

/-- the first member of a name is the one that is looked up -/
theorem head?_given_ofMemberValues (name : String) (ms : List (String × Json)) :
    (given [name] (ofMemberValues ms)).head? = (Json.lookup? name ms).map ofValue := by
  induction ms with
  | nil => rfl
  | cons m ms ih =>
    obtain ⟨key, v⟩ := m
    have hcons : given [name] (ofMemberValues ((key, v) :: ms)) =
        given [name] [(some key, ofValue v)] ++ given [name] (ofMemberValues ms) :=
      given_append [name] [(some key, ofValue v)] (ofMemberValues ms)
    rw [hcons, Json.lookup?]
    by_cases hkey : key = name
    · rw [if_pos hkey]
      simp [given, hkey]
    · rw [if_neg hkey, ← ih]
      simp [given, hkey]

theorem length_given_ofMemberValues (name : String) (ms : List (String × Json)) :
    (given [name] (ofMemberValues ms)).length = (ms.map Prod.fst).count name := by
  induction ms with
  | nil => rfl
  | cons m ms ih =>
    obtain ⟨key, v⟩ := m
    have hcons : given [name] (ofMemberValues ((key, v) :: ms)) =
        given [name] [(some key, ofValue v)] ++ given [name] (ofMemberValues ms) :=
      given_append [name] [(some key, ofValue v)] (ofMemberValues ms)
    rw [hcons, List.length_append, ih, List.map_cons, List.count_cons]
    by_cases hkey : key = name
    · simp [given, hkey, Nat.add_comm]
    · simp [given, hkey]

theorem named_ofMemberValues (ms : List (String × Json)) :
    ∀ m ∈ ofMemberValues ms, m.1 ≠ none := by
  induction ms with
  | nil => exact fun _ h => absurd h List.not_mem_nil
  | cons m ms ih =>
    obtain ⟨key, v⟩ := m
    exact List.forall_mem_cons.2 ⟨Option.some_ne_none key, ih⟩

theorem slot?_ofValue (name : String) (place : Nat) (v : Json) :
    (ofValue v).slot? [name] place = (v.slot? name place).map ofValue := by
  cases v with
  | object ms => exact head?_given_ofMemberValues name ms
  | array items =>
    show (ofValues items)[place]? = items[place]?.map ofValue
    rw [ofValues_eq_map, List.getElem?_map]
  | _ => rfl

theorem slots_ofValue (names : List String) (v : Json) :
    (ofValue v).slots (names.map ([·])) =
      names.zipIdx.map fun x => (v.slot? x.1 x.2).map ofValue := by
  unfold slots
  rw [List.zipIdx_map, List.map_map]
  exact List.map_congr_left fun x _ => slot?_ofValue x.1 x.2 v

theorem isRecord_ofValue_iff {names : List String} {v : Json} :
    (ofValue v).IsRecord (names.map ([·])) ↔ v.IsRecord names := by
  cases v with
  | object ms =>
    show _ ∧ _ ↔ ∀ name ∈ names, (ms.map Prod.fst).count name ≤ 1
    rw [List.forall_mem_map, and_iff_right (named_ofMemberValues ms)]
    simp only [length_given_ofMemberValues]
  | array items =>
    show (ofValues items).length ≤ (names.map ([·])).length ↔ items.length ≤ names.length
    rw [ofValues_eq_map, List.length_map, List.length_map]
  | _ => exact Iff.rfl

/-- a record is read from a value by what stands in its slots -/
theorem record_ofValue_eq_some_iff {α : Type} {names : List String}
    {build : Nat → List (Option Document) → Option α} {room : Nat} {v : Json} {a : α}
    (hnodup : names.Nodup) :
    record (names.map ([·])) build (room + 1) (ofValue v) = some a ↔ v.IsRecord names ∧
      build room (names.zipIdx.map fun x => (v.slot? x.1 x.2).map ofValue) = some a := by
  have hdisjoint : (names.map ([·])).Pairwise fun a b => ∀ n ∈ a, n ∉ b := by
    refine List.pairwise_map.2 (hnodup.imp fun hne n hn hmem => hne ?_)
    rw [← List.mem_singleton.1 hn, ← List.mem_singleton.1 hmem]
  rw [record_eq_some_iff hdisjoint, and_iff_right (Nat.succ_pos room), isRecord_ofValue_iff,
    slots_ofValue]
  rfl

end Document

end LedgerClient
