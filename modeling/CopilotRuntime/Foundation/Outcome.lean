import Mathlib.Data.List.Forall2

/-!
# Computations that raise

A computation written in steps returns a value exactly when each of its steps
returns one.
-/

namespace CopilotRuntime.Foundation

universe u v

variable {ε : Type u} {α β : Type v}

/-- A computed value, with the computation and a check that the value passes. -/
def checked (o : Option α) (check : α → Bool) (h : o.any check = true) :
    { a : α // o = some a ∧ check a = true } :=
  match o, h with
  | some a, h => ⟨a, rfl, h⟩

theorem ok_ne_error {a : α} {e : ε} : (.ok a : Except ε α) ≠ .error e := by
  intro h
  cases h

theorem error_ne_ok {e : ε} {a : α} : (.error e : Except ε α) ≠ .ok a := by
  intro h
  cases h

theorem ok_bind {a : α} {f : α → Except ε β} : (Except.ok a >>= f) = f a := rfl

theorem bind_eq_ok_iff {x : Except ε α} {f : α → Except ε β} {b : β} :
    x >>= f = .ok b ↔ ∃ a, x = .ok a ∧ f a = .ok b := by
  cases x with
  | ok a => simp [bind, Except.bind]
  | error e => simp [bind, Except.bind]

theorem pure_eq_ok_iff {a b : α} : (pure a : Except ε α) = .ok b ↔ a = b := by
  simp [pure, Except.pure]

/-- A step that raises on a condition is passed where the condition fails. -/
theorem raiseIf_eq_ok_iff {p : Prop} [Decidable p] {e : ε} {f : α → Except ε β}
    {x : Except ε β} {b : β} :
    (if p then (throw e >>= f) else x) = .ok b ↔ ¬ p ∧ x = .ok b := by
  by_cases hp : p
  · simp [hp, throw, throwThe, MonadExceptOf.throw, bind, Except.bind]
  · simp [hp]

section Lists
variable {ε α β γ : Type}

/-- A list of computations returns the values each of them returns. -/
theorem mapM_eq_ok_iff {f : α → Except ε β} {xs : List α} {ys : List β} :
    xs.mapM f = .ok ys ↔ List.Forall₂ (fun x y => f x = .ok y) xs ys := by
  induction xs generalizing ys with
  | nil => rw [List.mapM_nil, pure_eq_ok_iff, List.forall₂_nil_left_iff, eq_comm]
  | cons x rest ih =>
      rw [List.mapM_cons, bind_eq_ok_iff, List.forall₂_cons_left_iff]
      simp only [bind_eq_ok_iff, pure_eq_ok_iff, ih]
      constructor
      · rintro ⟨y, hy, ys', hys, rfl⟩
        exact ⟨y, ys', hy, hys, rfl⟩
      · rintro ⟨y, ys', hy, hys, rfl⟩
        exact ⟨y, hy, ys', hys, rfl⟩

theorem exists_left_of_forall₂ {R : α → β → Prop} {xs : List α} {ys : List β}
    (h : List.Forall₂ R xs ys) {y : β} (hy : y ∈ ys) : ∃ x ∈ xs, R x y := by
  induction h with
  | nil => cases hy
  | cons hfirst _ ih =>
      rcases List.mem_cons.mp hy with rfl | hy
      · exact ⟨_, List.mem_cons_self, hfirst⟩
      · obtain ⟨x, hx, hrelated⟩ := ih hy
        exact ⟨x, List.mem_cons_of_mem _ hx, hrelated⟩

theorem exists_right_of_forall₂ {R : α → β → Prop} {xs : List α} {ys : List β}
    (h : List.Forall₂ R xs ys) {x : α} (hx : x ∈ xs) : ∃ y ∈ ys, R x y :=
  exists_left_of_forall₂ h.flip hx

theorem map_eq_map_iff_forall₂ {f : α → γ} {g : β → γ} {xs : List α} {ys : List β} :
    xs.map f = ys.map g ↔ List.Forall₂ (fun x y => f x = g y) xs ys := by
  rw [← List.forall₂_eq_eq_eq, List.forall₂_map_left_iff, List.forall₂_map_right_iff]

/-- A list of computations raises what the first of them raises that returns no value. -/
theorem mapM_eq_error_iff {f : α → Except ε β} {xs : List α} {e : ε} :
    xs.mapM f = .error e ↔
      ∃ before x after, xs = before ++ x :: after ∧ (∀ y ∈ before, ∃ b, f y = .ok b) ∧
        f x = .error e := by
  induction xs with
  | nil =>
      rw [List.mapM_nil]
      constructor
      · intro h
        cases h
      · rintro ⟨before, x, after, hsplit, -, -⟩
        simp at hsplit
  | cons x rest ih =>
      rw [List.mapM_cons]
      cases hx : f x with
      | error raised =>
          constructor
          · intro h
            cases h
            exact ⟨[], x, rest, rfl, by simp, hx⟩
          · rintro ⟨before, x', after, hsplit, hbefore, hx'⟩
            cases before with
            | nil =>
                obtain ⟨rfl, rfl⟩ := List.cons.inj hsplit
                rw [hx] at hx'
                cases hx'
                rfl
            | cons y before =>
                obtain ⟨rfl, rfl⟩ := List.cons.inj hsplit
                obtain ⟨b, hb⟩ := hbefore x List.mem_cons_self
                exact absurd (hx.symm.trans hb) error_ne_ok
      | ok b =>
          have hrest : (do let b' ← (.ok b : Except ε β); let bs ← rest.mapM f; pure (b' :: bs)) =
              .error e ↔ rest.mapM f = .error e := by
            cases hmap : rest.mapM f with
            | ok bs => exact ⟨fun h => absurd h ok_ne_error, fun h => absurd h ok_ne_error⟩
            | error raised => exact ⟨fun h => by cases h; rfl, fun h => by cases h; rfl⟩
          rw [hrest, ih]
          constructor
          · rintro ⟨before, x', after, rfl, hbefore, hx'⟩
            exact ⟨x :: before, x', after, rfl,
              List.forall_mem_cons.mpr ⟨⟨b, hx⟩, hbefore⟩, hx'⟩
          · rintro ⟨before, x', after, hsplit, hbefore, hx'⟩
            cases before with
            | nil =>
                obtain ⟨rfl, rfl⟩ := List.cons.inj hsplit
                exact absurd (hx.symm.trans hx') ok_ne_error
            | cons y before =>
                obtain ⟨rfl, rfl⟩ := List.cons.inj hsplit
                exact ⟨before, x', after, rfl, fun y hy => hbefore y (List.mem_cons_of_mem _ hy),
                  hx'⟩

end Lists

/-! ### Outcomes in other terms -/

section Translation
variable {ε ε' α β γ δ : Type} (onError : ε → ε')

def translate (onOk : α → β) : Except ε α → Except ε' β
  | .ok a => .ok (onOk a)
  | .error e => .error (onError e)

/-- A sequence is translated step by step. -/
theorem translate_bind {onFirst : α → γ} {onOk : β → δ} {x : Except ε α} {f : α → Except ε β}
    {f' : γ → Except ε' δ} (h : ∀ a, x = .ok a → translate onError onOk (f a) = f' (onFirst a)) :
    translate onError onOk (x >>= f) = translate onError onFirst x >>= f' := by
  cases x with
  | ok a => exact h a rfl
  | error e => rfl

theorem translate_mapM (onOk : α → β) (xs : List (Except ε α)) :
    translate onError (List.map onOk) (xs.mapM id) =
      (xs.map (translate onError onOk)).mapM id := by
  induction xs with
  | nil => rfl
  | cons x rest ih =>
      rw [List.mapM_cons, List.map_cons, List.mapM_cons]
      refine translate_bind onError fun a _ => ?_
      rw [← ih]
      exact translate_bind onError fun as _ => rfl

end Translation

end CopilotRuntime.Foundation
