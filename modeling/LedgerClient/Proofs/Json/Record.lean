import LedgerClient.Proofs.Json.Denotation
import LedgerClient.Proofs.Json.Fields
import Mathlib.Algebra.Group.Nat.Defs
/-!
# What fields show

A record is told by what stands in its fields: a text, a number in some range, any value, or
nothing. What a document shows is told here without its reader, and each reader takes what shows
something and nothing else.

* `Document.Shows.text`, `whole`, `unsigned`, `value`   single fields;
* `Document.Optional`    the same, or `null`;
* `Document.Defaulted`   the same, or a missing field;
* `Document.Reads`       a reader takes what shows something, and nothing else.
-/

namespace LedgerClient.Document

/-- what a document shows, with so many levels of containers left -/
abbrev Shows (α : Type) := (room : Nat) → Document → α → Prop

def Shows.text : Shows String := fun _ d s => d = .string (some s)

/-- a whole number from `low` to `high` -/
def Shows.whole (low high : Int) : Shows Int := fun _ d n =>
  d = .number (some (.whole n)) ∧ low ≤ n ∧ n ≤ high

/-- an unsigned number of `bits` bits -/
def Shows.unsigned (bits : Nat) : Shows Nat := fun _ d n =>
  d = .number (some (.whole n)) ∧ n < 2 ^ bits

def Shows.value : Shows Json := fun room d v => d.Denotes v ∧ d.nesting ≤ room

section
variable {α : Type}

/-- `null` is nothing, and everything else has to show something -/
inductive Optional (shows : Shows α) (room : Nat) : Document → Option α → Prop
  | null : Optional shows room .null none
  | given {d : Document} {a : α} : d ≠ .null → shows room d a → Optional shows room d (some a)

/-- a missing field shows the default, and one that is there has to show something -/
inductive Defaulted (shows : Shows α) (default : α) (room : Nat) : Option Document → α → Prop
  | missing : Defaulted shows default room none default
  | given {d : Document} {a : α} : shows room d a → Defaulted shows default room (some d) a

/-- the reader takes what shows something, and nothing else -/
def Reads (read : Reader α) (shows : Shows α) : Prop :=
  ∀ room d a, read room d = some a ↔ shows room d a

variable {read : Reader α} {shows : Shows α} {room : Nat} {slot : Option Document} {a : α}

theorem optional_of_ne_null {d : Document} (h : d ≠ .null) :
    optional read room d = (read room d).map some := by
  cases d with
  | null => exact absurd rfl h
  | _ => rfl

theorem Reads.optional (h : Reads read shows) :
    Reads (Document.optional read) (Optional shows) := by
  intro room d x
  by_cases hnull : d = .null
  · subst hnull
    constructor
    · rintro ⟨⟩
      exact .null
    · intro hx
      cases hx with
      | null => rfl
      | given hne _ => exact absurd rfl hne
  · rw [optional_of_ne_null hnull, Option.map_eq_some_iff]
    constructor
    · rintro ⟨a, ha, rfl⟩
      exact .given hnull ((h room d a).1 ha)
    · intro hx
      cases hx with
      | null => exact absurd rfl hnull
      | given _ ha => exact ⟨_, (h room d _).2 ha, rfl⟩

theorem Reads.defaulted (h : Reads read shows) {default : α} :
    Document.defaulted read default room slot = some a ↔
      Defaulted shows default room slot a := by
  cases slot with
  | none =>
    constructor
    · rintro ⟨⟩
      exact .missing
    · rintro ⟨⟩
      rfl
  | some d =>
    show read room d = some a ↔ _
    rw [h]
    constructor
    · exact .given
    · rintro (_ | ha)
      exact ha

theorem Reads.required (h : Reads read shows) :
    Document.required read room slot = some a ↔ ∃ d, slot = some d ∧ shows room d a := by
  unfold Document.required
  rw [Option.bind_eq_some_iff]
  exact exists_congr fun d => and_congr_right fun _ => h room d a

/-! ### a field after the other -/

variable {β : Type} {f : α → Option β} {b : β}

theorem Reads.defaulted_bind (h : Reads read shows) {default : α} :
    (Document.defaulted read default room slot).bind f = some b ↔
      ∃ a, Defaulted shows default room slot a ∧ f a = some b := by
  rw [Option.bind_eq_some_iff]
  exact exists_congr fun a => and_congr_left fun _ => h.defaulted

theorem Reads.required_bind (h : Reads read shows) :
    (Document.required read room slot).bind f = some b ↔
      ∃ a, (∃ d, slot = some d ∧ shows room d a) ∧ f a = some b := by
  rw [Option.bind_eq_some_iff]
  exact exists_congr fun a => and_congr_left fun _ => h.required

/-- an optional field shows something when it is there and not `null` -/
theorem Defaulted.isSome_iff {x : Option α} (h : Defaulted (Optional shows) none room slot x) :
    x.isSome ↔ ∃ d, slot = some d ∧ d ≠ .null := by
  cases h with
  | missing => simp
  | given h =>
    cases h with
    | null => simp
    | given hne _ => simp [hne]

end

/-! ## single fields -/

theorem reads_text : Reads text Shows.text := by
  intro room d s
  cases d with
  | string x =>
    show x = some s ↔ Document.string x = .string (some s)
    rw [Document.string.injEq]
  | _ => exact ⟨nofun, nofun⟩

theorem reads_whole (low high : Int) : Reads (whole low high) (Shows.whole low high) := by
  intro room d n
  cases d with
  | number x =>
    cases x with
    | none => exact ⟨nofun, fun h => nomatch h.1⟩
    | some x =>
      cases x with
      | double bits => exact ⟨nofun, fun h => nomatch h.1⟩
      | whole m =>
        show (if low ≤ m ∧ m ≤ high then some m else none) = some n ↔ _
        by_cases hrange : low ≤ m ∧ m ≤ high
        · rw [if_pos hrange, Option.some_inj]
          constructor
          · rintro rfl
            exact ⟨rfl, hrange⟩
          · rintro ⟨⟨⟩, -⟩
            rfl
        · rw [if_neg hrange]
          constructor
          · exact nofun
          · rintro ⟨⟨⟩, h⟩
            exact absurd h hrange
  | _ => exact ⟨nofun, fun h => nomatch h.1⟩

theorem reads_unsigned (bits : Nat) : Reads (unsigned bits) (Shows.unsigned bits) := by
  intro room d n
  show (whole 0 ((2 ^ bits : Nat) - 1) room d).map Int.toNat = some n ↔ _
  rw [Option.map_eq_some_iff]
  constructor
  · rintro ⟨i, hi, rfl⟩
    obtain ⟨rfl, hlow, hhigh⟩ := (reads_whole _ _ room d i).1 hi
    refine ⟨?_, by omega⟩
    rw [Int.toNat_of_nonneg hlow]
  · rintro ⟨rfl, hn⟩
    refine ⟨n, (reads_whole _ _ room _ n).2 ⟨rfl, Int.natCast_nonneg n, ?_⟩, Int.toNat_natCast n⟩
    omega

theorem reads_value : Reads value Shows.value := fun _ _ _ => value?_eq_some_iff

end LedgerClient.Document
