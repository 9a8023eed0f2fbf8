import Mathlib.Logic.Function.Basic

/-!
# Programs that suspend at await points

A program returns, raises, or awaits one operation and continues with the
reply. The signature of operations is a parameter, so one program can be run
sequentially by a handler or interleaved with others by an environment.

## Implementation notes

The reply type depends on the operation. A call that may fail therefore has
an `Except` reply, and the program decides whether it is caught.
-/

namespace CopilotRuntime.Foundation

universe u v

/-- A coroutine over the operations `Op`, raising `ε` and returning `α`. -/
inductive Program (Op : Type u) (Reply : Op → Type u) (ε α : Type u) : Type u
  | done (value : α)
  | raised (error : ε)
  | await (op : Op) (resume : Reply op → Program Op Reply ε α)

namespace Program

variable {Op : Type u} {Reply : Op → Type u} {ε α β : Type u}

/-- Sequencing continues a returned value and propagates a raised error. -/
def bind : Program Op Reply ε α → (α → Program Op Reply ε β) → Program Op Reply ε β
  | done a, f => f a
  | raised e, _ => raised e
  | await op k, f => await op fun reply => (k reply).bind f

instance : Monad (Program Op Reply ε) where
  pure := done
  bind := bind

@[simp] theorem pure_eq_done (a : α) :
    (pure a : Program Op Reply ε α) = done a := rfl

@[simp] theorem done_bind (a : α) (f : α → Program Op Reply ε β) :
    (done a >>= f) = f a := rfl

@[simp] theorem raised_bind (e : ε) (f : α → Program Op Reply ε β) :
    (raised e >>= f) = raised e := rfl

@[simp] theorem await_bind (op : Op) (k : Reply op → Program Op Reply ε α)
    (f : α → Program Op Reply ε β) :
    (await op k >>= f) = await op fun reply => k reply >>= f := rfl

/-- Await one operation and return its reply. -/
def request (op : Op) : Program Op Reply ε (Reply op) := await op done

@[simp] theorem request_bind (op : Op) (f : Reply op → Program Op Reply ε β) :
    (request op >>= f) = await op f := rfl

/-- Reraise a failed reply, or continue with its value. -/
def ofExcept : Except ε α → Program Op Reply ε α
  | .ok a => done a
  | .error e => raised e

@[simp] theorem ofExcept_ok (a : α) :
    (ofExcept (.ok a) : Program Op Reply ε α) = done a := rfl

/-- The value of a program that has returned. -/
def returned : Program Op Reply ε α → Option α
  | done a => some a
  | _ => none

theorem eq_done_of_returned {p : Program Op Reply ε α} {a : α} (h : p.returned = some a) :
    p = done a := by
  cases p with
  | done b => exact congrArg done (Option.some.inj h)
  | raised e => cases h
  | await op k => cases h

/-- Every operation the program may await, whatever the replies, is allowed. -/
inductive OnlyAwaits (allowed : Op → Prop) : Program Op Reply ε α → Prop
  | done (a : α) : OnlyAwaits allowed (done a)
  | raised (e : ε) : OnlyAwaits allowed (raised e)
  | await {op : Op} {resume : Reply op → Program Op Reply ε α} (permitted : allowed op)
      (rest : ∀ reply, OnlyAwaits allowed (resume reply)) : OnlyAwaits allowed (await op resume)

section Footprint
variable {allowed : Op → Prop}

theorem OnlyAwaits.mono {allowed' : Op → Prop} {p : Program Op Reply ε α}
    (h : p.OnlyAwaits allowed) (himp : ∀ op, allowed op → allowed' op) : p.OnlyAwaits allowed' := by
  induction h with
  | done a => exact .done a
  | raised e => exact .raised e
  | await permitted _ ih => exact .await (himp _ permitted) ih

/-- A sequenced program awaits only what its parts may await. -/
theorem OnlyAwaits.bind {p : Program Op Reply ε α} {f : α → Program Op Reply ε β}
    (hp : p.OnlyAwaits allowed) (hf : ∀ a, (f a).OnlyAwaits allowed) :
    (p >>= f).OnlyAwaits allowed := by
  induction hp with
  | done a => exact hf a
  | raised e => exact .raised e
  | await permitted _ ih => exact .await permitted ih

/-- Returning a function of the result awaits nothing more. -/
theorem OnlyAwaits.bind_pure {p : Program Op Reply ε α} (hp : p.OnlyAwaits allowed) (f : α → β) :
    (p >>= fun a => pure (f a)).OnlyAwaits allowed :=
  hp.bind fun a => .done (f a)

/-- Any operation may be awaited when all are allowed. -/
theorem onlyAwaits_of_forall (h : ∀ op, allowed op) :
    (p : Program Op Reply ε α) → p.OnlyAwaits allowed
  | .done a => .done a
  | .raised e => .raised e
  | .await op resume => .await (h op) fun reply => onlyAwaits_of_forall h (resume reply)

theorem onlyAwaits_ofExcept (r : Except ε α) :
    (ofExcept r : Program Op Reply ε α).OnlyAwaits allowed := by
  cases r with
  | ok a => exact .done a
  | error e => exact .raised e

end Footprint

section Lift
variable {Op' : Type u} {Reply' : Op' → Type u} {ε' : Type u} (embed : Op → Op')
  (reply : (op : Op) → Reply' (embed op) → Reply op) (error : ε → ε')

/-- The program over a larger signature, with its errors renamed. -/
def lift : Program Op Reply ε α → Program Op' Reply' ε' α
  | done a => done a
  | raised e => raised (error e)
  | await op k => await (embed op) fun r => lift (k (reply op r))

variable {embed reply error} {allowed : Op → Prop}

/-- A lifted program awaits the images of what the program may await. -/
theorem OnlyAwaits.lift {p : Program Op Reply ε α} (h : p.OnlyAwaits allowed) :
    (p.lift embed reply error).OnlyAwaits fun op' => ∃ op, allowed op ∧ op' = embed op := by
  induction h with
  | done a => exact .done a
  | raised e => exact .raised (error e)
  | await permitted _ ih => exact .await ⟨_, permitted, rfl⟩ fun r => ih (reply _ r)

end Lift

/-- However the program ends, the result satisfies the predicate. -/
inductive Ends (P : Except ε α → Prop) : Program Op Reply ε α → Prop
  | done {a : α} (holds : P (.ok a)) : Ends P (done a)
  | raised {e : ε} (holds : P (.error e)) : Ends P (raised e)
  | await {op : Op} {resume : Reply op → Program Op Reply ε α}
      (rest : ∀ reply, Ends P (resume reply)) : Ends P (await op resume)

/-- A sequence ends as its second part does, or with an error of its first. -/
theorem Ends.bind {P : Except ε α → Prop} {Q : Except ε β → Prop} {p : Program Op Reply ε α}
    {f : α → Program Op Reply ε β} (hp : p.Ends P) (hok : ∀ a, P (.ok a) → (f a).Ends Q)
    (herror : ∀ e, P (.error e) → Q (.error e)) : (p >>= f).Ends Q := by
  induction hp with
  | done holds => exact hok _ holds
  | raised holds => exact .raised (herror _ holds)
  | await _ ih => exact .await ih

/-- The second part need only be right after a result that the first part can end with. -/
theorem OnlyAwaits.bind_ends {allowed : Op → Prop} {P : Except ε α → Prop}
    {p : Program Op Reply ε α} {f : α → Program Op Reply ε β} (hp : p.OnlyAwaits allowed)
    (hends : p.Ends P) (hf : ∀ a, P (.ok a) → (f a).OnlyAwaits allowed) :
    (p >>= f).OnlyAwaits allowed := by
  induction hp with
  | done a =>
      cases hends with
      | done holds => exact hf a holds
  | raised e => exact .raised e
  | await permitted _ ih =>
      cases hends with
      | await rest => exact .await permitted fun reply => ih reply (rest reply)

section Sequential
variable {σ : Type v}

/-- Run one program alone, answering every operation from the current state. -/
def runWith (handle : (op : Op) → σ → Reply op × σ) :
    Program Op Reply ε α → σ → Except ε α × σ
  | done a, s => (.ok a, s)
  | raised e, s => (.error e, s)
  | await op k, s => runWith handle (k (handle op s).1) (handle op s).2

variable (handle : (op : Op) → σ → Reply op × σ)

@[simp] theorem runWith_done (a : α) (s : σ) :
    runWith handle (done a : Program Op Reply ε α) s = (.ok a, s) := rfl

@[simp] theorem runWith_raised (e : ε) (s : σ) :
    runWith handle (raised e : Program Op Reply ε α) s = (.error e, s) := rfl

@[simp] theorem runWith_await (op : Op) (k : Reply op → Program Op Reply ε α) (s : σ) :
    runWith handle (await op k) s =
      runWith handle (k (handle op s).1) (handle op s).2 := rfl

/-- A sequenced program runs its first part and, on success, its second part. -/
theorem runWith_bind (p : Program Op Reply ε α) (f : α → Program Op Reply ε β) (s : σ) :
    runWith handle (p >>= f) s =
      match runWith handle p s with
      | (.ok a, s') => runWith handle (f a) s'
      | (.error e, s') => (.error e, s') := by
  induction p generalizing s with
  | done a => rfl
  | raised e => rfl
  | await op k ih => exact ih _ _

/-- A program that asks for nothing leaves the state as it was. -/
theorem runWith_of_silent {p : Program Op Reply ε α} (h : p.OnlyAwaits fun _ => False) (s : σ) :
    (runWith handle p s).2 = s := by
  cases h with
  | done a => rfl
  | raised e => rfl
  | await hallowed _ => exact hallowed.elim

end Sequential

end Program

end CopilotRuntime.Foundation

/-!
# Programs that run to completion

A program that runs alone gets a reply to every operation from the current
state and ends with a value or an error. What it did is read off the program's
own structure.
-/

namespace CopilotRuntime.Foundation

universe u v

namespace Program

variable {Op : Type u} {Reply : Op → Type u} {ε α β : Type u} {σ : Type v}
  (env : (op : Op) → σ → Reply op → σ → Prop)

/-- The program may run from one state to another and end with the result. -/
inductive Completes : Program Op Reply ε α → σ → Except ε α → σ → Prop
  | done (a : α) (s : σ) : Completes (.done a) s (.ok a) s
  | raised (e : ε) (s : σ) : Completes (.raised e) s (.error e) s
  | await {op : Op} {resume : Reply op → Program Op Reply ε α} {s s' s'' : σ} {reply : Reply op}
      {result : Except ε α} (effect : env op s reply s')
      (rest : Completes (resume reply) s' result s'') : Completes (.await op resume) s result s''

variable {env} {p : Program Op Reply ε α} {f : α → Program Op Reply ε β} {s s' : σ}

theorem completes_done {a : α} {result : Except ε α}
    (h : Completes env (.done a) s result s') : result = .ok a ∧ s' = s := by
  cases h
  exact ⟨rfl, rfl⟩

theorem completes_raised {e : ε} {result : Except ε α}
    (h : Completes env (.raised e : Program Op Reply ε α) s result s') :
    result = .error e ∧ s' = s := by
  cases h
  exact ⟨rfl, rfl⟩

theorem completes_await {op : Op} {resume : Reply op → Program Op Reply ε α}
    {result : Except ε α} (h : Completes env (.await op resume) s result s') :
    ∃ reply next, env op s reply next ∧ Completes env (resume reply) next result s' := by
  cases h with
  | await effect rest => exact ⟨_, _, effect, rest⟩

/-- A sequence completes through its first part, or raises where that part raises. -/
theorem Completes.bind_cases {result : Except ε β}
    (h : Completes env (p >>= f) s result s') :
    (∃ a next, Completes env p s (.ok a) next ∧ Completes env (f a) next result s') ∨
      ∃ e, result = .error e ∧ Completes env p s (.error e) s' := by
  induction p generalizing s with
  | done a => exact .inl ⟨a, s, .done a s, h⟩
  | raised e =>
      obtain ⟨rfl, rfl⟩ := completes_raised h
      exact .inr ⟨e, rfl, .raised e _⟩
  | await op resume ih =>
      obtain ⟨reply, next, heffect, hrest⟩ := completes_await h
      rcases ih reply hrest with ⟨a, middle, hfirst, hthen⟩ | ⟨e, hresult, hraised⟩
      · exact .inl ⟨a, middle, .await heffect hfirst, hthen⟩
      · exact .inr ⟨e, hresult, .await heffect hraised⟩

/-- A sequence that returned did so through its first part. -/
theorem Completes.bind_ok {b : β} (h : Completes env (p >>= f) s (.ok b) s') :
    ∃ a next, Completes env p s (.ok a) next ∧ Completes env (f a) next (.ok b) s' := by
  rcases h.bind_cases with hboth | ⟨e, herror, _⟩
  · exact hboth
  · cases herror

/-- A program run by a handler completes with the handler's answers. -/
theorem completes_runWith {handle : (op : Op) → σ → Reply op × σ}
    (sound : ∀ op s, env op s (handle op s).1 (handle op s).2) (p : Program Op Reply ε α) (s : σ) :
    Completes env p s (runWith handle p s).1 (runWith handle p s).2 := by
  induction p generalizing s with
  | done a => exact .done a s
  | raised e => exact .raised e s
  | await op resume ih => exact .await (sound op s) (ih _ _)

end Program

end CopilotRuntime.Foundation
