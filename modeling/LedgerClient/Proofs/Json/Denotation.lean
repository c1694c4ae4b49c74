import LedgerClient.Json.Fields
/-!
# The value that a document spells

A document is read as a value only as deep as there is room. What it spells does not depend on the
room, so the two are told apart here.

* `Document.Denotes`              the value that a document spells, part by part;
* `Document.nesting`              how many containers stand in each other;
* `Document.value?_eq_some_iff`   a document is read as its value when there is room for it.
-/

namespace LedgerClient.Document

mutual

/-- the document spells this value -/
inductive Denotes : Document → Json → Prop
  | null : Denotes .null .null
  | bool (b : Bool) : Denotes (.bool b) (.bool b)
  | number (n : JsonNumber) : Denotes (.number (some n)) (.number n)
  | string (s : String) : Denotes (.string (some s)) (.string s)
  | array {items : List Document} {vs : List Json} : DenoteItems items vs →
    Denotes (.array items) (.array vs)
  | object {ms : List (Option String × Document)} {vs : List (String × Json)} :
    DenoteMembers ms vs → Denotes (.object ms) (Json.ofMembers vs)

inductive DenoteItems : List Document → List Json → Prop
  | nil : DenoteItems [] []
  | cons {d : Document} {v : Json} {ds : List Document} {vs : List Json} : Denotes d v →
    DenoteItems ds vs → DenoteItems (d :: ds) (v :: vs)

/-- every name is readable -/
inductive DenoteMembers : List (Option String × Document) → List (String × Json) → Prop
  | nil : DenoteMembers [] []
  | cons {name : String} {d : Document} {v : Json} {ms : List (Option String × Document)}
    {vs : List (String × Json)} : Denotes d v → DenoteMembers ms vs →
    DenoteMembers ((some name, d) :: ms) ((name, v) :: vs)

end

mutual

/-- how many containers stand in each other; a scalar needs none -/
def nesting : Document → Nat
  | .array items => itemsNesting items + 1
  | .object ms => membersNesting ms + 1
  | _ => 0

def itemsNesting : List Document → Nat
  | [] => 0
  | d :: ds => max (nesting d) (itemsNesting ds)

def membersNesting : List (Option String × Document) → Nat
  | [] => 0
  | (_, d) :: ms => max (nesting d) (membersNesting ms)

end

/-! ## what is read -/

/-- what is read of a part, whatever the room -/
abbrev ReadsAs {α β : Type} (read : Nat → α → Option β) (denotes : α → β → Prop)
    (nesting : α → Nat) (a : α) : Prop :=
  ∀ room b, read room a = some b ↔ denotes a b ∧ nesting a ≤ room

variable {d : Document} {ds : List Document} {ms : List (Option String × Document)}
  {name : Option String}

theorem readsAs_array (h : ReadsAs values? DenoteItems itemsNesting ds) :
    ReadsAs value? Denotes nesting (.array ds) := by
  intro room v
  cases room with
  | zero => exact ⟨nofun, fun h => absurd h.2 (Nat.not_succ_le_zero _)⟩
  | succ room =>
    show (values? room ds).map Json.array = some v ↔ _ ∧ itemsNesting ds + 1 ≤ room + 1
    rw [Option.map_eq_some_iff]
    constructor
    · rintro ⟨vs, hvs, rfl⟩
      obtain ⟨hdenote, hroom⟩ := (h room vs).1 hvs
      exact ⟨.array hdenote, Nat.succ_le_succ hroom⟩
    · rintro ⟨hdenotes, hroom⟩
      cases hdenotes with
      | array hdenote => exact ⟨_, (h room _).2 ⟨hdenote, Nat.le_of_succ_le_succ hroom⟩, rfl⟩

theorem readsAs_object (h : ReadsAs memberValues? DenoteMembers membersNesting ms) :
    ReadsAs value? Denotes nesting (.object ms) := by
  intro room v
  cases room with
  | zero => exact ⟨nofun, fun h => absurd h.2 (Nat.not_succ_le_zero _)⟩
  | succ room =>
    show (memberValues? room ms).map Json.ofMembers = some v ↔ _ ∧ membersNesting ms + 1 ≤ room + 1
    rw [Option.map_eq_some_iff]
    constructor
    · rintro ⟨vs, hvs, rfl⟩
      obtain ⟨hdenote, hroom⟩ := (h room vs).1 hvs
      exact ⟨.object hdenote, Nat.succ_le_succ hroom⟩
    · rintro ⟨hdenotes, hroom⟩
      cases hdenotes with
      | object hdenote => exact ⟨_, (h room _).2 ⟨hdenote, Nat.le_of_succ_le_succ hroom⟩, rfl⟩

theorem readsAs_scalar (harray : ∀ items, d ≠ .array items) (hobject : ∀ ms, d ≠ .object ms) :
    ReadsAs value? Denotes nesting d := by
  intro room v
  cases d with
  | array items => exact absurd rfl (harray items)
  | object ms => exact absurd rfl (hobject ms)
  | null =>
    constructor
    · rintro ⟨⟩
      exact ⟨.null, Nat.zero_le _⟩
    · rintro ⟨⟨⟩, -⟩
      rfl
  | bool b =>
    constructor
    · rintro ⟨⟩
      exact ⟨.bool b, Nat.zero_le _⟩
    · rintro ⟨⟨⟩, -⟩
      rfl
  | number n =>
    constructor
    · intro h
      obtain ⟨n', rfl, rfl⟩ := Option.map_eq_some_iff.1 (show n.map Json.number = some v from h)
      exact ⟨.number n', Nat.zero_le _⟩
    · rintro ⟨⟨⟩, -⟩
      rfl
  | string s =>
    constructor
    · intro h
      obtain ⟨s', rfl, rfl⟩ := Option.map_eq_some_iff.1 (show s.map Json.string = some v from h)
      exact ⟨.string s', Nat.zero_le _⟩
    · rintro ⟨⟨⟩, -⟩
      rfl

theorem readsAs_nil : ReadsAs values? DenoteItems itemsNesting [] := by
  intro room vs
  constructor
  · rintro ⟨⟩
    exact ⟨.nil, Nat.zero_le _⟩
  · rintro ⟨⟨⟩, -⟩
    rfl

theorem readsAs_cons (hd : ReadsAs value? Denotes nesting d)
    (hds : ReadsAs values? DenoteItems itemsNesting ds) :
    ReadsAs values? DenoteItems itemsNesting (d :: ds) := by
  intro room vs
  show ((value? room d).bind fun v => (values? room ds).bind fun vs => some (v :: vs)) = some vs ↔
    _ ∧ max (nesting d) (itemsNesting ds) ≤ room
  simp only [Option.bind_eq_some_iff, hd room, hds room, Nat.max_le]
  constructor
  · rintro ⟨v, ⟨hv, hroom⟩, vs, ⟨hvs, hroom'⟩, ⟨⟩⟩
    exact ⟨.cons hv hvs, hroom, hroom'⟩
  · rintro ⟨h, hroom, hroom'⟩
    cases h with
    | cons hv hvs => exact ⟨_, ⟨hv, hroom⟩, _, ⟨hvs, hroom'⟩, rfl⟩

theorem readsAs_no_members : ReadsAs memberValues? DenoteMembers membersNesting [] := by
  intro room vs
  constructor
  · rintro ⟨⟩
    exact ⟨.nil, Nat.zero_le _⟩
  · rintro ⟨⟨⟩, -⟩
    rfl

theorem readsAs_members (hd : ReadsAs value? Denotes nesting d)
    (hms : ReadsAs memberValues? DenoteMembers membersNesting ms) :
    ReadsAs memberValues? DenoteMembers membersNesting ((name, d) :: ms) := by
  intro room vs
  cases name with
  | none => exact ⟨nofun, nofun⟩
  | some name =>
    show ((value? room d).bind fun v => (memberValues? room ms).bind fun vs =>
      some ((name, v) :: vs)) = some vs ↔ _ ∧ max (nesting d) (membersNesting ms) ≤ room
    simp only [Option.bind_eq_some_iff, hd room, hms room, Nat.max_le]
    constructor
    · rintro ⟨v, ⟨hv, hroom⟩, vs, ⟨hvs, hroom'⟩, ⟨⟩⟩
      exact ⟨.cons hv hvs, hroom, hroom'⟩
    · rintro ⟨h, hroom, hroom'⟩
      cases h with
      | cons hv hvs => exact ⟨_, ⟨hv, hroom⟩, _, ⟨hvs, hroom'⟩, rfl⟩

/-- a value needs as many levels as its document is nested -/
theorem value?_eq_some_iff {room : Nat} {v : Json} :
    value? room d = some v ↔ d.Denotes v ∧ d.nesting ≤ room := by
  have h : ReadsAs value? Denotes nesting d := by
    refine (nesting.mutual_induct (ReadsAs value? Denotes nesting)
      (ReadsAs memberValues? DenoteMembers membersNesting)
      (ReadsAs values? DenoteItems itemsNesting)
      ?array ?object ?scalar ?noItems ?items ?noMembers ?members).1 d
    case array => exact fun _ => readsAs_array
    case object => exact fun _ => readsAs_object
    case scalar => exact fun _ harray hobject => readsAs_scalar harray hobject
    case noItems => exact readsAs_nil
    case items => exact fun _ _ => readsAs_cons
    case noMembers => exact readsAs_no_members
    case members => exact fun _ _ _ => readsAs_members
  exact h room v

theorem Denotes.eq {v w : Json} (hv : d.Denotes v) (hw : d.Denotes w) : v = w := by
  have h := value?_eq_some_iff.2 ⟨hv, Nat.le_refl d.nesting⟩
  rw [value?_eq_some_iff.2 ⟨hw, Nat.le_refl d.nesting⟩] at h
  exact (Option.some_inj.1 h).symm

/-- nothing but `null` spells null -/
theorem denotes_null_iff : d.Denotes .null ↔ d = .null := by
  constructor
  · intro h
    cases h with
    | null => rfl
  · rintro rfl
    exact .null

end LedgerClient.Document
