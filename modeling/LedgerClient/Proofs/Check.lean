import Mathlib.Data.List.Forall2
/-!
# Checks in sequence

What a sequence of checks says when it passes, and when it stops.

* `bind_eq_ok_iff`           it passes when every check passes;
* `bind_eq_error_iff`        it stops at the first check that fails, with that check's error;
* `numbered_eq_ok_iff`       a numbered row of checks passes when each of them passes at its place;
* `numbered_eq_error_iff`    and stops at the first that fails at its place;
* `numbered_eq_error_iff_place`   the same, said by positions;
* `exists_first`             the first element of a list of which something does not hold;
* `exists_forall₂_iff`, `mapM_eq_some_iff`   rows of results, one for each element of a list.
-/

namespace LedgerClient

variable {ε α β : Type}

theorem bind_eq_ok_iff {x : Except ε α} {f : α → Except ε β} {b : β} :
    (x >>= f) = .ok b ↔ ∃ a, x = .ok a ∧ f a = .ok b := by
  cases x with
  | error e => simp [bind, Except.bind]
  | ok a => simp [bind, Except.bind]

theorem bind_eq_error_iff {x : Except ε α} {f : α → Except ε β} {e : ε} :
    (x >>= f) = .error e ↔ x = .error e ∨ ∃ a, x = .ok a ∧ f a = .error e := by
  cases x with
  | error e' => simp [bind, Except.bind]
  | ok a => simp [bind, Except.bind]

theorem pure_eq_ok_iff {a b : α} : (pure a : Except ε α) = .ok b ↔ a = b :=
  ⟨fun h => Except.ok.inj h, fun h => h ▸ rfl⟩

theorem map_eq_ok_iff {x : Except ε α} {f : α → β} {b : β} :
    x.map f = .ok b ↔ ∃ a, x = .ok a ∧ f a = b := by
  cases x with
  | error e => simp [Except.map]
  | ok a => simp [Except.map]

theorem map_eq_error_iff {x : Except ε α} {f : α → β} {e : ε} :
    x.map f = .error e ↔ x = .error e := by
  cases x with
  | error e => simp [Except.map]
  | ok a => simp [Except.map]

theorem toOption_eq_some_iff {x : Except ε α} {a : α} : x.toOption = some a ↔ x = .ok a := by
  cases x with
  | error e => exact ⟨nofun, nofun⟩
  | ok b => simp [Except.toOption]

@[simp] theorem ok_bind (a : α) (f : α → Except ε β) : (Except.ok a >>= f) = f a := rfl

/-- a function that takes a list apart, numbers its elements from `n` on and stops at the first
error succeeds exactly when it succeeds at every place -/
theorem numbered_eq_ok_iff {f : Nat → α → Except ε β} {F : Nat → List α → Except ε (List β)}
    (hnil : ∀ n, F n [] = .ok [])
    (hcons : ∀ n x xs, F n (x :: xs) = f n x >>= fun y => F (n + 1) xs >>= fun ys => pure (y :: ys))
    {n : Nat} {xs : List α} {ys : List β} :
    F n xs = .ok ys ↔ ys.length = xs.length ∧
      ∀ i x y, xs[i]? = some x → ys[i]? = some y → f (n + i) x = .ok y := by
  induction xs generalizing n ys with
  | nil =>
    rw [hnil]
    cases ys <;> simp
  | cons x xs ih =>
    rw [hcons, bind_eq_ok_iff]
    constructor
    · rintro ⟨y, hy, h⟩
      obtain ⟨rest, hrest, h⟩ := bind_eq_ok_iff.1 h
      obtain rfl := pure_eq_ok_iff.1 h
      obtain ⟨hl, hi⟩ := ih.1 hrest
      refine ⟨congrArg Nat.succ hl, fun i => ?_⟩
      cases i with
      | zero =>
        rintro _ _ h1 h2
        obtain rfl := Option.some.inj h1
        obtain rfl := Option.some.inj h2
        exact hy
      | succ i =>
        intro a b h1 h2
        rw [← Nat.succ_add_eq_add_succ]
        exact hi i a b h1 h2
    · rintro ⟨hl, hi⟩
      cases ys with
      | nil => cases hl
      | cons y ys =>
        refine ⟨y, hi 0 x y rfl rfl, bind_eq_ok_iff.2 ⟨ys, ih.2 ⟨Nat.succ.inj hl, ?_⟩, rfl⟩⟩
        intro i a b h1 h2
        rw [Nat.succ_add_eq_add_succ]
        exact hi (i + 1) a b h1 h2

/-- and it stops at the first place where it fails, with the error there -/
theorem numbered_eq_error_iff {f : Nat → α → Except ε β} {F : Nat → List α → Except ε (List β)}
    (hnil : ∀ n, F n [] = .ok [])
    (hcons : ∀ n x xs, F n (x :: xs) = f n x >>= fun y => F (n + 1) xs >>= fun ys => pure (y :: ys))
    {n : Nat} {xs : List α} {e : ε} :
    F n xs = .error e ↔ ∃ pre x post, xs = pre ++ x :: post ∧
      (∀ i y, pre[i]? = some y → ∃ z, f (n + i) y = .ok z) ∧ f (n + pre.length) x = .error e := by
  induction xs generalizing n with
  | nil =>
    rw [hnil]
    simp
  | cons x xs ih =>
    rw [hcons, bind_eq_error_iff]
    constructor
    · rintro (hx | ⟨y, hy, h⟩)
      · exact ⟨[], x, xs, rfl, nofun, hx⟩
      · have hrest : F (n + 1) xs = .error e :=
          (bind_eq_error_iff.1 h).resolve_right fun ⟨_, _, h⟩ => nomatch h
        obtain ⟨pre, x', post, rfl, hpre, hx'⟩ := ih.1 hrest
        refine ⟨x :: pre, x', post, rfl, fun i => ?_, ?_⟩
        · cases i with
          | zero =>
            rintro _ h1
            obtain rfl := Option.some.inj h1
            exact ⟨y, hy⟩
          | succ i =>
            intro a h1
            rw [← Nat.succ_add_eq_add_succ]
            exact hpre i a h1
        · rwa [List.length_cons, ← Nat.succ_add_eq_add_succ]
    · rintro ⟨pre, x', post, hxs, hpre, hx'⟩
      cases pre with
      | nil =>
        obtain ⟨rfl, rfl⟩ := List.cons.inj hxs
        exact .inl hx'
      | cons z pre =>
        obtain ⟨rfl, rfl⟩ := List.cons.inj hxs
        obtain ⟨y, hy⟩ := hpre 0 x rfl
        have hrest : F (n + 1) (pre ++ x' :: post) = .error e := by
          refine ih.2 ⟨pre, x', post, rfl, fun i a h1 => ?_, ?_⟩
          · rw [Nat.succ_add_eq_add_succ]
            exact hpre (i + 1) a h1
          · rwa [Nat.succ_add_eq_add_succ]
        exact .inr ⟨y, hy, bind_eq_error_iff.2 (.inl hrest)⟩

/-- the first place where it fails, by its position -/
theorem numbered_eq_error_iff_place {f : Nat → α → Except ε β}
    {F : Nat → List α → Except ε (List β)} (hnil : ∀ n, F n [] = .ok [])
    (hcons : ∀ n x xs, F n (x :: xs) = f n x >>= fun y => F (n + 1) xs >>= fun ys => pure (y :: ys))
    {n : Nat} {xs : List α} {e : ε} :
    F n xs = .error e ↔ ∃ i x, xs[i]? = some x ∧
      (∀ j < i, ∀ y, xs[j]? = some y → ∃ z, f (n + j) y = .ok z) ∧ f (n + i) x = .error e := by
  rw [numbered_eq_error_iff hnil hcons]
  constructor
  · rintro ⟨pre, x, post, rfl, hpre, hx⟩
    refine ⟨pre.length, x, ?_, fun j hj y hy => ?_, hx⟩
    · rw [List.getElem?_append_right (Nat.le_refl _), Nat.sub_self]
      rfl
    · rw [List.getElem?_append_left hj] at hy
      exact hpre j y hy
  · rintro ⟨i, x, hi, hbefore, hx⟩
    obtain ⟨hlt, rfl⟩ := List.getElem?_eq_some_iff.1 hi
    have hlength : (xs.take i).length = i := List.length_take_of_le (Nat.le_of_lt hlt)
    refine ⟨xs.take i, xs[i], xs.drop (i + 1), ?_, fun j y hj => ?_, by rwa [hlength]⟩
    · rw [List.getElem_cons_drop, List.take_append_drop]
    · have hji : j < i := hlength ▸ (List.getElem?_eq_some_iff.1 hj).1
      rw [List.getElem?_take_of_lt hji] at hj
      exact hbefore j hji y hj

theorem exists_first {p : α → Prop} {l : List α} (h : ¬ ∀ x ∈ l, p x) :
    ∃ pre x post, l = pre ++ x :: post ∧ (∀ y ∈ pre, p y) ∧ ¬ p x := by
  induction l with
  | nil => exact absurd (fun _ hx => nomatch hx) h
  | cons x l ih =>
    by_cases hx : p x
    · have hl : ¬ ∀ y ∈ l, p y := fun hl => h fun y hy => by
        rcases List.mem_cons.1 hy with rfl | hy
        · exact hx
        · exact hl y hy
      obtain ⟨pre, z, post, rfl, hpre, hz⟩ := ih hl
      refine ⟨x :: pre, z, post, rfl, fun y hy => ?_, hz⟩
      rcases List.mem_cons.1 hy with rfl | hy
      · exact hx
      · exact hpre y hy
    · exact ⟨[], x, l, rfl, nofun, hx⟩

/-! ## rows of results -/

theorem exists_forall₂_iff {R : α → β → Prop} {xs : List α} :
    (∃ ys, List.Forall₂ R xs ys) ↔ ∀ x ∈ xs, ∃ y, R x y := by
  constructor
  · rintro ⟨ys, h⟩
    have hboth : List.Forall₂ (fun x y => (∃ y, R x y) ∧ R x y) xs ys :=
      h.imp fun x y hxy => ⟨⟨y, hxy⟩, hxy⟩
    exact ((List.forall₂_and_left xs ys).1 hboth).1
  · intro h
    induction xs with
    | nil => exact ⟨[], .nil⟩
    | cons x xs ih =>
      obtain ⟨y, hy⟩ := h x List.mem_cons_self
      obtain ⟨ys, hys⟩ := ih fun z hz => h z (List.mem_cons_of_mem x hz)
      exact ⟨y :: ys, .cons hy hys⟩

theorem mapM_eq_some_iff {f : α → Option β} {xs : List α} {ys : List β} :
    xs.mapM f = some ys ↔ List.Forall₂ (fun x y => f x = some y) xs ys := by
  induction xs generalizing ys with
  | nil =>
    rw [List.mapM_nil, List.forall₂_nil_left_iff]
    exact ⟨fun h => (Option.some.inj h).symm, fun h => congrArg some h.symm⟩
  | cons x xs ih =>
    rw [List.mapM_cons, List.forall₂_cons_left_iff]
    constructor
    · intro h
      obtain ⟨y, hy, h⟩ := Option.bind_eq_some_iff.1 h
      obtain ⟨zs, hzs, e⟩ := Option.bind_eq_some_iff.1 h
      exact ⟨y, zs, hy, ih.1 hzs, (Option.some.inj e).symm⟩
    · rintro ⟨y, zs, hy, hzs, rfl⟩
      rw [hy, ih.2 hzs]
      rfl

end LedgerClient
