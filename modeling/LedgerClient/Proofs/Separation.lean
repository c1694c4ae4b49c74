import LedgerClient.Text.Utf8
import Mathlib.Data.String.Basic
/-!
# Texts that are hashed one behind the other

What is hashed for a key or an address is made of several texts, put together with nothing between
them. The bytes keep what the texts say together and forget where one ends and the next begins.
Here is what is lost by that, and nothing more is: equal bytes come from the same two texts, or from
texts of which a piece has gone over the boundary. A hash can lose more, but only by a collision.

* `Text.Moved`                a piece of text goes over the boundary between two texts;
* `Text.utf8_append_eq_iff`   two texts have the bytes of two others exactly when they are the same
  or a piece has moved;
* `Collides`                  two different inputs with one hash;
* `hash_eq_iff`, `hash_hash_eq_iff`   one hash, or two in a row, gives the same for the same input,
  or collides.
-/

namespace LedgerClient

namespace Text

variable {s t s' t' : String}

/-! ## two texts, joined -/

/-- a piece of text goes over the boundary between two texts, to the left or to the right -/
def Moved (s t s' t' : String) : Prop :=
  ∃ piece, piece ≠ "" ∧ (s' = s ++ piece ∧ t = piece ++ t' ∨ s = s' ++ piece ∧ t' = piece ++ t)

theorem Moved.ne_left (h : Moved s t s' t') : s ≠ s' := by
  obtain ⟨piece, hpiece, ⟨hs, -⟩ | ⟨hs, -⟩⟩ := h
  all_goals
    rintro rfl
    have hchars := congrArg String.toList hs
    rw [String.toList_append, List.self_eq_append_right, String.toList_eq_nil_iff] at hchars
    exact hpiece hchars

/-- two texts say together what two others do -/
theorem append_eq_append_iff :
    s ++ t = s' ++ t' ↔ (s = s' ∧ t = t') ∨ Moved s t s' t' := by
  constructor
  · intro h
    have hchars : s.toList ++ t.toList = s'.toList ++ t'.toList := by
      rw [← String.toList_append, h, String.toList_append]
    have hcut : (∃ piece : String, s' = s ++ piece ∧ t = piece ++ t') ∨
        ∃ piece : String, s = s' ++ piece ∧ t' = piece ++ t := by
      refine (List.append_eq_append_iff.1 hchars).imp ?_ ?_
      all_goals
        rintro ⟨cs, hleft, hright⟩
        refine ⟨String.ofList cs, String.toList_injective ?_, String.toList_injective ?_⟩
        · rw [hleft, String.toList_append, String.toList_ofList]
        · rw [hright, String.toList_append, String.toList_ofList]
    -- a piece with nothing in it has not moved anything
    rcases hcut with ⟨piece, hs, ht⟩ | ⟨piece, hs, ht⟩
    · by_cases hpiece : piece = ""
      · rw [hpiece, String.append_empty] at hs
        rw [hpiece, String.empty_append] at ht
        exact .inl ⟨hs.symm, ht⟩
      · exact .inr ⟨piece, hpiece, .inl ⟨hs, ht⟩⟩
    · by_cases hpiece : piece = ""
      · rw [hpiece, String.append_empty] at hs
        rw [hpiece, String.empty_append] at ht
        exact .inl ⟨hs, ht.symm⟩
      · exact .inr ⟨piece, hpiece, .inr ⟨hs, ht⟩⟩
  · rintro (⟨rfl, rfl⟩ | ⟨piece, -, ⟨rfl, rfl⟩ | ⟨rfl, rfl⟩⟩)
    · rfl
    · rw [String.append_assoc]
    · rw [String.append_assoc]

theorem utf8_append_eq_iff :
    utf8 s ++ utf8 t = utf8 s' ++ utf8 t' ↔ (s = s' ∧ t = t') ∨ Moved s t s' t' := by
  rw [← utf8_append, ← utf8_append, ← append_eq_append_iff]
  exact ⟨utf8_injective, congrArg utf8⟩

end Text

/-! ## hashes -/

section

variable {α β γ : Type} {f : α → β} {g : β → γ} {a b : α}

/-- two different inputs with one hash -/
def Collides (f : α → β) (a b : α) : Prop := a ≠ b ∧ f a = f b

theorem hash_eq_iff : f a = f b ↔ a = b ∨ Collides f a b := by
  constructor
  · intro h
    by_cases heq : a = b
    · exact .inl heq
    · exact .inr ⟨heq, h⟩
  · rintro (rfl | h)
    · rfl
    · exact h.2

/-- a hash of a hash collides at the one or at the other -/
theorem hash_hash_eq_iff : g (f a) = g (f b) ↔ a = b ∨ Collides f a b ∨ Collides g (f a) (f b) := by
  rw [hash_eq_iff, hash_eq_iff, or_assoc]

end

end LedgerClient
