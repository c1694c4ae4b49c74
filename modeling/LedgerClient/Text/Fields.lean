/-!
# Fields between separators

* `fields sep cs`     the pieces of `cs` between separators, at least one;
* `joined sep fs`     the pieces with a separator between any two.

Splitting what was joined gives the pieces back, provided none of them holds the separator; the
pieces of a text never do.
-/

namespace LedgerClient.Text

/-- puts `c` in front of the first piece -/
def consFirst (c : Char) : List (List Char) → List (List Char)
  | [] => [[c]]
  | f :: fs => (c :: f) :: fs

def fields (sep : Char) : List Char → List (List Char)
  | [] => [[]]
  | c :: cs => if c = sep then [] :: fields sep cs else consFirst c (fields sep cs)

def joined (sep : Char) : List (List Char) → List Char
  | [] => []
  | [f] => f
  | f :: fs => f ++ sep :: joined sep fs

theorem fields_ne_nil (sep : Char) (cs : List Char) : fields sep cs ≠ [] := by
  cases cs with
  | nil => simp [fields]
  | cons c cs =>
    simp only [fields]
    split
    · simp
    · cases fields sep cs <;> simp [consFirst]

theorem fields_append_sep {sep : Char} {f : List Char} (h : sep ∉ f) (r : List Char) :
    fields sep (f ++ sep :: r) = f :: fields sep r := by
  induction f with
  | nil => simp [fields]
  | cons c f ih =>
    have hc : c ≠ sep := fun e => h (e ▸ List.mem_cons_self)
    have hf : sep ∉ f := fun e => h (List.mem_cons_of_mem c e)
    simp [fields, hc, ih hf, consFirst]

theorem fields_of_not_mem {sep : Char} {f : List Char} (h : sep ∉ f) : fields sep f = [f] := by
  induction f with
  | nil => rfl
  | cons c f ih =>
    have hc : c ≠ sep := fun e => h (e ▸ List.mem_cons_self)
    have hf : sep ∉ f := fun e => h (List.mem_cons_of_mem c e)
    simp [fields, hc, ih hf, consFirst]

/-- splitting what was joined -/
theorem fields_joined {sep : Char} {fs : List (List Char)} (hne : fs ≠ [])
    (h : ∀ f ∈ fs, sep ∉ f) : fields sep (joined sep fs) = fs := by
  induction fs with
  | nil => exact absurd rfl hne
  | cons f fs ih =>
    cases fs with
    | nil => exact fields_of_not_mem (h f (by simp))
    | cons g gs =>
      rw [joined, fields_append_sep (h f (by simp)),
        ih (by simp) (fun x hx => h x (List.mem_cons_of_mem f hx))]
      · simp

/-- no piece holds the separator -/
theorem not_mem_of_mem_fields {sep : Char} {cs f : List Char} (h : f ∈ fields sep cs) :
    sep ∉ f := by
  induction cs generalizing f with
  | nil =>
    obtain rfl : f = [] := by simpa [fields] using h
    exact List.not_mem_nil
  | cons c cs ih =>
    rw [fields] at h
    split at h
    · rcases List.mem_cons.1 h with rfl | h
      · exact List.not_mem_nil
      · exact ih h
    · rename_i hc
      cases hf : fields sep cs with
      | nil => exact absurd hf (fields_ne_nil sep cs)
      | cons g gs =>
        rw [hf, consFirst] at h
        rcases List.mem_cons.1 h with rfl | h
        · have hg : sep ∉ g := ih (hf ▸ List.mem_cons_self)
          simpa [Ne.symm hc] using hg
        · exact ih (hf ▸ List.mem_cons_of_mem g h)

/-- joining what was split -/
theorem joined_fields (sep : Char) (cs : List Char) : joined sep (fields sep cs) = cs := by
  induction cs with
  | nil => rfl
  | cons c cs ih =>
    simp only [fields]
    have hne := fields_ne_nil sep cs
    split
    · rename_i h
      subst h
      cases hf : fields c cs with
      | nil => exact absurd hf hne
      | cons g gs => rw [joined, ← hf, ih]; rfl; simp
    · cases hf : fields sep cs with
      | nil => exact absurd hf hne
      | cons g gs =>
        rw [hf] at ih
        cases gs with
        | nil => simpa [consFirst, joined] using ih
        | cons g' gs => simp only [consFirst, joined] at ih ⊢; rw [List.cons_append, ih]

/-- the last piece and what stands before it -/
theorem exists_front_joined {sep : Char} {fs : List (List Char)} (h : fs ≠ []) :
    ∃ front, joined sep fs = front ++ fs.getLastD [] ∧
      (front = [] ∨ front.getLast? = some sep) := by
  induction fs with
  | nil => exact absurd rfl h
  | cons f fs ih =>
    cases fs with
    | nil => exact ⟨[], rfl, .inl rfl⟩
    | cons g gs =>
      obtain ⟨front, hj, hfront⟩ := ih (List.cons_ne_nil g gs)
      have hlast : (f ++ sep :: front).getLast? = some sep := by
        rcases hfront with rfl | hfront
        · simp
        · rw [List.getLast?_append, List.getLast?_cons, hfront]
          rfl
      refine ⟨f ++ sep :: front, ?_, .inr hlast⟩
      show f ++ sep :: joined sep (g :: gs) = _
      rw [hj, List.append_assoc]
      rfl

end LedgerClient.Text
