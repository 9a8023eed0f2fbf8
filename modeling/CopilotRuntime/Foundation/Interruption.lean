import CopilotRuntime.Foundation.Program

/-!
# Programs that may be interrupted

A program that runs alone may stop after any of its operations. What holds at
every such point is its crash condition; what holds when it returns is its
postcondition.

## Implementation notes

Nothing is said of the error with which a program raises. A third condition says
in which states it may.
-/

namespace CopilotRuntime.Foundation

universe u v

namespace Program

variable {Op : Type u} {Reply : Op → Type u} {ε α β : Type u} {σ : Type v}

/-- Continue with the handler where a program raises. -/
def tryCatch : Program Op Reply ε α → (ε → Program Op Reply ε α) → Program Op Reply ε α
  | done a, _ => done a
  | raised e, handler => handler e
  | await op resume, handler => await op fun reply => (resume reply).tryCatch handler

section Reaches
variable (env : (op : Op) → σ → Reply op → σ → Prop)

/-- The program may get to a state, with the rest of it still to run. -/
inductive Reaches : Program Op Reply ε α → σ → Program Op Reply ε α → σ → Prop
  | here (p : Program Op Reply ε α) (s : σ) : Reaches p s p s
  | await {op : Op} {resume : Reply op → Program Op Reply ε α} {s s' s'' : σ} {reply : Reply op}
      {rest : Program Op Reply ε α} (effect : env op s reply s')
      (onward : Reaches (resume reply) s' rest s'') : Reaches (.await op resume) s rest s''

/-- The program keeps the crash condition at every point, returns with the postcondition, and
raises only where it may fail. -/
inductive Withstands (crash fails : σ → Prop) (post : α → σ → Prop) :
    Program Op Reply ε α → σ → Prop
  | done {a : α} {s : σ} (kept : crash s) (returns : post a s) :
      Withstands crash fails post (.done a) s
  | raised {e : ε} {s : σ} (kept : crash s) (failed : fails s) :
      Withstands crash fails post (.raised e) s
  | await {op : Op} {resume : Reply op → Program Op Reply ε α} {s : σ} (kept : crash s)
      (next : ∀ reply s', env op s reply s' → Withstands crash fails post (resume reply) s') :
      Withstands crash fails post (.await op resume) s

end Reaches

section Rules
variable {env : (op : Op) → σ → Reply op → σ → Prop} {crash crash' fails fails' : σ → Prop}
  {post : α → σ → Prop} {p : Program Op Reply ε α} {s : σ}

theorem Withstands.kept (h : Withstands env crash fails post p s) : crash s := by
  cases h with
  | done kept _ => exact kept
  | raised kept _ => exact kept
  | await kept _ => exact kept

/-- Wherever the program gets to, its rest still keeps its conditions. -/
theorem Withstands.reaches {rest : Program Op Reply ε α} {s' : σ}
    (h : Withstands env crash fails post p s) (hreaches : Reaches env p s rest s') :
    Withstands env crash fails post rest s' := by
  induction hreaches with
  | here p s => exact h
  | await effect _ ih =>
      cases h with
      | await _ next => exact ih (next _ _ effect)

theorem Withstands.returned {a : α}
    (h : Withstands env crash fails post (.done a : Program Op Reply ε α) s) : post a s := by
  cases h with
  | done _ returns => exact returns

theorem Withstands.mono {post' : α → σ → Prop} (h : Withstands env crash fails post p s)
    (hcrash : ∀ s, crash s → crash' s) (hfails : ∀ s, fails s → fails' s)
    (hpost : ∀ a s, post a s → post' a s) : Withstands env crash' fails' post' p s := by
  induction h with
  | done kept returns => exact .done (hcrash _ kept) (hpost _ _ returns)
  | raised kept failed => exact .raised (hcrash _ kept) (hfails _ failed)
  | await kept _ ih => exact .await (hcrash _ kept) ih

/-- A sequence keeps the crash condition of both its parts. -/
theorem Withstands.bind {mid : α → σ → Prop} {post : β → σ → Prop}
    {f : α → Program Op Reply ε β} (h : Withstands env crash fails mid p s)
    (hf : ∀ a s, mid a s → Withstands env crash fails post (f a) s) :
    Withstands env crash fails post (p >>= f) s := by
  induction h with
  | done _ returns => exact hf _ _ returns
  | raised kept failed => exact .raised kept failed
  | await kept _ ih => exact .await kept ih

/-- A handler starts in a state in which the program may have failed. -/
theorem Withstands.tryCatch {handler : ε → Program Op Reply ε α}
    (h : Withstands env crash fails' post p s)
    (hhandler : ∀ e s, crash s → fails' s → Withstands env crash fails post (handler e) s) :
    Withstands env crash fails post (p.tryCatch handler) s := by
  induction h with
  | done kept returns => exact .done kept returns
  | raised kept failed => exact hhandler _ _ kept failed
  | await kept _ ih => exact .await kept ih

/-- A program that may fail nowhere returns when a handler answers it. -/
theorem Withstands.runWith {handle : (op : Op) → σ → Reply op × σ}
    (h : Withstands env crash fails post p s) (hnever : ∀ s, ¬fails s)
    (sound : ∀ op s, env op s (handle op s).1 (handle op s).2) :
    ∃ a s', Program.runWith handle p s = (.ok a, s') ∧ post a s' := by
  induction h with
  | done _ returns => exact ⟨_, _, rfl, returns⟩
  | raised _ failed => exact (hnever _ failed).elim
  | await _ _ ih => exact ih _ _ (sound _ _)

end Rules

section Stopping
variable (handle : (op : Op) → σ → Reply op × σ)

/-- Run a program for a number of operations and stop it there. -/
def runFor : Nat → Program Op Reply ε α → σ → Program Op Reply ε α × σ
  | n + 1, await op resume, s => runFor n (resume (handle op s).1) (handle op s).2
  | _, p, s => (p, s)

variable {handle} {env : (op : Op) → σ → Reply op → σ → Prop}

theorem reaches_runFor (sound : ∀ op s, env op s (handle op s).1 (handle op s).2) (n : Nat)
    (p : Program Op Reply ε α) (s : σ) :
    Reaches env p s (runFor handle n p s).1 (runFor handle n p s).2 := by
  induction n generalizing p s with
  | zero => exact .here p s
  | succ n ih =>
      cases p with
      | done a => exact .here _ s
      | raised e => exact .here _ s
      | await op resume => exact .await (sound op s) (ih _ _)

theorem reaches_runWith {a : α} {s' : σ}
    (sound : ∀ op s, env op s (handle op s).1 (handle op s).2) {p : Program Op Reply ε α} {s : σ}
    (h : Program.runWith handle p s = (.ok a, s')) : Reaches env p s (.done a) s' := by
  induction p generalizing s with
  | done b =>
      obtain ⟨hb, rfl⟩ := Prod.mk.inj h
      obtain rfl := Except.ok.inj hb
      exact .here _ s
  | raised e =>
      obtain ⟨he, -⟩ := Prod.mk.inj h
      cases he
  | await op resume ih => exact .await (sound op s) (ih _ h)

end Stopping

end Program

end CopilotRuntime.Foundation

/-!
# Programs answered by a handler

A program whose operations a handler answers runs in one way. What it ensures is
told of every state in which it could be stopped, and of the state and the
result with which it ends.
-/

namespace CopilotRuntime.Foundation

universe u v

namespace Program

variable {Op : Type u} {Reply : Op → Type u} {ε α β γ : Type u} {σ : Type v}
  (handle : (op : Op) → σ → Reply op × σ)

/-- Every state the program gets to keeps the crash condition, and it ends with the
postcondition. -/
def Ensures (crash : σ → Prop) (post : Except ε α → σ → Prop) : Program Op Reply ε α → σ → Prop
  | done a, s => crash s ∧ post (.ok a) s
  | raised e, s => crash s ∧ post (.error e) s
  | await op resume, s =>
      crash s ∧ Ensures crash post (resume (handle op s).1) (handle op s).2

variable {handle} {crash : σ → Prop} {post : Except ε α → σ → Prop} {p : Program Op Reply ε α}
  {s : σ}

@[simp] theorem ensures_done {a : α} :
    Ensures handle crash post (done a : Program Op Reply ε α) s ↔ crash s ∧ post (.ok a) s :=
  Iff.rfl

@[simp] theorem ensures_raised {e : ε} :
    Ensures handle crash post (raised e : Program Op Reply ε α) s ↔
      crash s ∧ post (.error e) s :=
  Iff.rfl

@[simp] theorem ensures_await {op : Op} {resume : Reply op → Program Op Reply ε α} :
    Ensures handle crash post (await op resume) s ↔
      crash s ∧ Ensures handle crash post (resume (handle op s).1) (handle op s).2 :=
  Iff.rfl

/-- What the program reaches is an end with the postcondition, or a step that keeps the crash
condition. -/
theorem ensures_iff : Ensures handle crash post p s ↔
    (∀ n, crash (runFor handle n p s).2) ∧ post (runWith handle p s).1 (runWith handle p s).2 := by
  induction p generalizing s with
  | done a =>
      have hstay : ∀ n, (runFor handle n (done a : Program Op Reply ε α) s).2 = s := by
        intro n
        cases n <;> rfl
      simp [hstay]
  | raised e =>
      have hstay : ∀ n, (runFor handle n (raised e : Program Op Reply ε α) s).2 = s := by
        intro n
        cases n <;> rfl
      simp [hstay]
  | await op resume ih =>
      rw [ensures_await, ih, runWith_await, ← and_assoc]
      apply and_congr_left'
      constructor
      · rintro ⟨hhere, hlater⟩ n
        cases n with
        | zero => exact hhere
        | succ n => exact hlater n
      · intro h
        exact ⟨h 0, fun n => h (n + 1)⟩

theorem Ensures.mono {post' : Except ε α → σ → Prop} (h : Ensures handle crash post p s)
    (hpost : ∀ result s, crash s → post result s → post' result s) :
    Ensures handle crash post' p s := by
  induction p generalizing s with
  | done a => exact ⟨h.1, hpost _ _ h.1 h.2⟩
  | raised e => exact ⟨h.1, hpost _ _ h.1 h.2⟩
  | await op resume ih => exact ⟨h.1, ih _ h.2⟩

/-- A sequence ensures what its second part ensures wherever the first part returns, and must
be content with the errors of the first part. -/
theorem Ensures.bind {mid : Except ε α → σ → Prop} {post : Except ε β → σ → Prop}
    {f : α → Program Op Reply ε β} (h : Ensures handle crash mid p s)
    (hok : ∀ a s, crash s → mid (.ok a) s → Ensures handle crash post (f a) s)
    (herror : ∀ e s, crash s → mid (.error e) s → post (.error e) s) :
    Ensures handle crash post (p >>= f) s := by
  induction p generalizing s with
  | done a => exact hok a s h.1 h.2
  | raised e => exact ⟨h.1, herror e s h.1 h.2⟩
  | await op resume ih => exact ⟨h.1, ih _ h.2⟩

theorem Ensures.tryCatch {mid : Except ε α → σ → Prop} {handler : ε → Program Op Reply ε α}
    (h : Ensures handle crash mid p s)
    (hok : ∀ a s, crash s → mid (.ok a) s → post (.ok a) s)
    (herror : ∀ e s, crash s → mid (.error e) s → Ensures handle crash post (handler e) s) :
    Ensures handle crash post (p.tryCatch handler) s := by
  induction p generalizing s with
  | done a => exact ⟨h.1, hok a s h.1 h.2⟩
  | raised e => exact herror e s h.1 h.2
  | await op resume ih => exact ⟨h.1, ih _ h.2⟩

/-- Sequences may be read from either side. -/
theorem bind_bind (p : Program Op Reply ε α) (f : α → Program Op Reply ε β)
    (g : β → Program Op Reply ε γ) : (p >>= f) >>= g = p >>= fun a => f a >>= g := by
  induction p with
  | done a => rfl
  | raised e => rfl
  | await op resume ih => exact congrArg (await op) (funext ih)

end Program

end CopilotRuntime.Foundation
