import Mathlib.Data.List.Induction

/-!
# Histories of steps

A history lists the steps a system took. A condition on its steps is one on each
step together with what came before it, so it is carried from a history to the
next by one more step.
-/

namespace CopilotRuntime.Foundation

universe u

variable {α : Type u} {P : List α → α → Prop} {history : List α}

/-- A step of a history and one more is the last one or a step of the history. -/
theorem snoc_eq_append_cons_iff {last e : α} {earlier later : List α} :
    history ++ [last] = earlier ++ e :: later ↔
      (earlier = history ∧ e = last ∧ later = []) ∨
        ∃ later', later = later' ++ [last] ∧ history = earlier ++ e :: later' := by
  constructor
  · intro h
    obtain rfl | ⟨later', x, rfl⟩ := List.eq_nil_or_concat later
    · obtain ⟨rfl, heq⟩ := List.append_inj' h rfl
      obtain ⟨rfl, -⟩ := List.cons.inj heq
      exact .inl ⟨rfl, rfl, rfl⟩
    · rw [List.concat_eq_append, ← List.cons_append, ← List.append_assoc] at h
      obtain ⟨hhistory, heq⟩ := List.append_inj' h rfl
      obtain ⟨rfl, -⟩ := List.cons.inj heq
      exact .inr ⟨later', List.concat_eq_append, hhistory⟩
  · rintro (⟨rfl, rfl, rfl⟩ | ⟨later', rfl, rfl⟩)
    · rfl
    · rw [List.append_assoc, List.cons_append]

/-- Every step of the history satisfies the condition together with the steps before it. -/
def EachStep (P : List α → α → Prop) (history : List α) : Prop :=
  ∀ earlier e later, history = earlier ++ e :: later → P earlier e

theorem eachStep_nil : EachStep P [] := by
  intro earlier e later hsplit
  simp at hsplit

/-- One more step adds its own obligation. -/
theorem eachStep_snoc {e : α} : EachStep P (history ++ [e]) ↔ EachStep P history ∧ P history e := by
  constructor
  · intro h
    refine ⟨fun earlier e' later hsplit => ?_, h history e [] rfl⟩
    exact h earlier e' (later ++ [e]) (by simp [hsplit])
  · rintro ⟨h, he⟩ earlier e' later hsplit
    obtain ⟨rfl, rfl, -⟩ | ⟨later', -, hhistory⟩ := snoc_eq_append_cons_iff.mp hsplit
    · exact he
    · exact h earlier e' later' hhistory

theorem EachStep.snoc (h : EachStep P history) (e : α) (he : P history e) :
    EachStep P (history ++ [e]) :=
  eachStep_snoc.mpr ⟨h, he⟩

theorem EachStep.of_prefix (h : EachStep P history) {earlier : List α} (hle : earlier <+: history) :
    EachStep P earlier := by
  obtain ⟨later, rfl⟩ := hle
  intro before e after hsplit
  exact h before e (after ++ later) (by simp [hsplit])

/-- A property of what a history leads to holds throughout if it holds at the start and every
step that meets its condition keeps it. -/
theorem EachStep.throughout {Q : List α → Prop} (h : EachStep P history) (hnil : Q [])
    (hstep : ∀ earlier e, Q earlier → P earlier e → Q (earlier ++ [e])) :
    ∀ earlier, earlier <+: history → Q earlier := by
  intro earlier hle
  have heach := h.of_prefix hle
  clear h hle
  induction earlier using List.reverseRecOn with
  | nil => exact hnil
  | append_singleton earlier e ih =>
      rw [eachStep_snoc] at heach
      exact hstep earlier e (ih heach.1) heach.2

/-- What relates a state to the steps that led to it holds of a longer history too, when every
further step keeps it. -/
theorem foldl_of_step {σ : Type*} {step : σ → α → σ} {R : List α → σ → Prop} {C : α → Prop}
    (hstep : ∀ {earlier s e}, R earlier s → C e → R (earlier ++ [e]) (step s e)) {s : σ}
    (h : R history s) {later : List α} (hlater : ∀ e ∈ later, C e) :
    R (history ++ later) (later.foldl step s) := by
  induction later generalizing history s with
  | nil => simpa using h
  | cons e rest ih =>
      have hrest := ih (hstep h (hlater e List.mem_cons_self))
        fun x hx => hlater x (List.mem_cons_of_mem _ hx)
      rwa [List.append_assoc, List.singleton_append] at hrest

end CopilotRuntime.Foundation
