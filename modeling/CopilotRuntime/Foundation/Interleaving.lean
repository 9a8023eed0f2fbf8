import Mathlib.Data.List.Pairwise
import Mathlib.Logic.Relation
import CopilotRuntime.Foundation.History
import CopilotRuntime.Foundation.Program

/-!
# Cooperative interleavings of programs

A pool holds the running programs of any number of tasks. One step starts a
task, lets one task perform its awaited operation on the shared state, or
stops a task for good. A stopped task models a crash or a cancellation at any
await point; other tasks are unaffected.

## Implementation notes

A run records every event. A task's assertion mentions only its own events,
so a step of another task cannot invalidate it; facts about the shared state
enter through one invariant relating the state to the recorded events.
-/

namespace CopilotRuntime.Foundation

universe u v

section AtMostOnce
variable {α : Type u} {P : α → Prop} {xs : List α}

/-- No two positions of the list satisfy the predicate. -/
def AtMostOnce (P : α → Prop) (xs : List α) : Prop := xs.Pairwise fun a b => ¬(P a ∧ P b)

theorem atMostOnce_nil : AtMostOnce P [] := .nil

/-- One more element may satisfy the predicate only if none before it does. -/
theorem atMostOnce_snoc {x : α} :
    AtMostOnce P (xs ++ [x]) ↔ AtMostOnce P xs ∧ (P x → ∀ a ∈ xs, ¬P a) := by
  unfold AtMostOnce
  rw [List.pairwise_append]
  constructor
  · rintro ⟨hxs, _, hlast⟩
    exact ⟨hxs, fun hx a ha hPa => hlast a ha x (by simp) ⟨hPa, hx⟩⟩
  · rintro ⟨hxs, hlast⟩
    refine ⟨hxs, List.pairwise_singleton _ _, fun a ha b hb hab => ?_⟩
    obtain rfl := List.mem_singleton.mp hb
    exact hlast hab.2 a ha hab.1

theorem AtMostOnce.eq (h : AtMostOnce P xs) {x y : α} (hx : x ∈ xs) (hy : y ∈ xs)
    (hPx : P x) (hPy : P y) : x = y := by
  by_contra hne
  have : Std.Symm fun a b => ¬(P a ∧ P b) := ⟨fun _ _ hab hba => hab hba.symm⟩
  exact h.forall hx hy hne ⟨hPx, hPy⟩

end AtMostOnce

/-- One recorded step of a run, with the task that took it. -/
inductive Event (Op : Type u) (Reply : Op → Type u) (Call : Type u) : Type u
  | started (task : Nat) (call : Call)
  | performed (task : Nat) (op : Op) (reply : Reply op)
  | stopped (task : Nat)

section Traces
variable {Op : Type u} {Reply : Op → Type u} {Call : Type u}

/-- The task that took a recorded step. -/
def Event.task : Event Op Reply Call → Nat
  | .started n _ => n
  | .performed n _ _ => n
  | .stopped n => n

@[simp] theorem Event.task_started (n : Nat) (call : Call) :
    (Event.started n call : Event Op Reply Call).task = n := rfl

@[simp] theorem Event.task_performed (n : Nat) (op : Op) (reply : Reply op) :
    (Event.performed n op reply : Event Op Reply Call).task = n := rfl

@[simp] theorem Event.task_stopped (n : Nat) :
    (Event.stopped n : Event Op Reply Call).task = n := rfl

theorem Event.started_ne_performed {n m : Nat} {call : Call} {op : Op} {reply : Reply op} :
    (Event.started n call : Event Op Reply Call) ≠ .performed m op reply :=
  nofun

theorem Event.stopped_ne_performed {n m : Nat} {op : Op} {reply : Reply op} :
    (Event.stopped n : Event Op Reply Call) ≠ .performed m op reply :=
  nofun

/-- The events of one task, in order. -/
def ownEvents (task : Nat) (trace : List (Event Op Reply Call)) : List (Event Op Reply Call) :=
  trace.filter fun event => event.task = task

variable {task : Nat} {trace : List (Event Op Reply Call)} {event : Event Op Reply Call}

theorem mem_ownEvents :
    event ∈ ownEvents task trace ↔ event ∈ trace ∧ event.task = task := by
  simp [ownEvents]

theorem ownEvents_append (task : Nat) (trace later : List (Event Op Reply Call)) :
    ownEvents task (trace ++ later) = ownEvents task trace ++ ownEvents task later := by
  simp [ownEvents]

theorem ownEvents_snoc_self (trace : List (Event Op Reply Call)) (h : event.task = task) :
    ownEvents task (trace ++ [event]) = ownEvents task trace ++ [event] := by
  simp [ownEvents, h]

theorem ownEvents_snoc_other (trace : List (Event Op Reply Call)) (h : event.task ≠ task) :
    ownEvents task (trace ++ [event]) = ownEvents task trace := by
  simp [ownEvents, h]

/-- What splits the events of one task splits the whole trace. -/
theorem exists_split_of_ownEvents {before after : List (Event Op Reply Call)}
    (h : ownEvents task trace = before ++ event :: after) :
    ∃ earlier later, trace = earlier ++ event :: later ∧ ownEvents task earlier = before ∧
      ownEvents task later = after := by
  obtain ⟨first, rest, rfl, hfirst, hrest⟩ := List.filter_eq_append_iff.mp h
  obtain ⟨skipped, later, rfl, hskipped, -, hlater⟩ := List.filter_eq_cons_iff.mp hrest
  refine ⟨first ++ skipped, later, (List.append_assoc _ _ _).symm, ?_, hlater⟩
  rw [ownEvents_append, ownEvents, ownEvents, hfirst, List.filter_eq_nil_iff.mpr hskipped,
    List.append_nil]

/-- Every event of the trace satisfies `P` together with the events before it. -/
def EachAfter (P : List (Event Op Reply Call) → Event Op Reply Call → Prop)
    (trace : List (Event Op Reply Call)) : Prop :=
  ∀ earlier event later, trace = earlier ++ event :: later → P earlier event

variable {P : List (Event Op Reply Call) → Event Op Reply Call → Prop}

theorem eachAfter_nil : EachAfter P [] := by
  intro earlier event later h
  simp at h

/-- Recording one more event adds exactly its own obligation. -/
theorem eachAfter_snoc :
    EachAfter P (trace ++ [event]) ↔ EachAfter P trace ∧ P trace event := by
  constructor
  · intro h
    refine ⟨fun earlier e later he => ?_, h trace event [] rfl⟩
    exact h earlier e (later ++ [event]) (by simp [he])
  · rintro ⟨hall, hlast⟩ earlier e later he
    obtain ⟨rfl, rfl, -⟩ | ⟨later', -, htrace⟩ := snoc_eq_append_cons_iff.mp he
    · exact hlast
    · exact hall earlier e later' htrace

theorem EachAfter.split (h : EachAfter P trace) (hevent : event ∈ trace) :
    ∃ earlier later, trace = earlier ++ event :: later ∧ P earlier event := by
  obtain ⟨earlier, later, rfl⟩ := List.append_of_mem hevent
  exact ⟨earlier, later, rfl, h earlier event later rfl⟩

/-- Events that exclude earlier ones of their kind are at most one. -/
theorem atMostOnce_of_eachAfter {Q : Event Op Reply Call → Prop}
    (h : EachAfter (fun earlier event => Q event → ∀ e ∈ earlier, ¬ Q e) trace) :
    AtMostOnce Q trace := by
  induction trace using List.reverseRecOn with
  | nil => exact atMostOnce_nil
  | append_singleton trace event ih =>
      rw [eachAfter_snoc] at h
      exact atMostOnce_snoc.mpr ⟨ih h.1, h.2⟩

end Traces

section Runs
variable {Op : Type u} {Reply : Op → Type u} {ε α Call : Type u} {σ : Type v}

/-- The shared state and the programs still running, numbered from zero. -/
structure Pool (Op : Type u) (Reply : Op → Type u) (ε α : Type u) (σ : Type v) where
  shared : σ
  tasks : Nat → Option (Program Op Reply ε α)
  spawned : Nat

/-- The pool in which nothing has started yet. -/
def Pool.initial (s : σ) : Pool Op Reply ε α σ := ⟨s, fun _ => none, 0⟩

variable (body : Call → Program Op Reply ε α)
  (env : (op : Op) → σ → Reply op → σ → Prop)

/-- One step of a pool and the event it records. -/
inductive Step : Pool Op Reply ε α σ → Event Op Reply Call → Pool Op Reply ε α σ → Prop
  | start (pool : Pool Op Reply ε α σ) (call : Call) :
      Step pool (.started pool.spawned call)
        { pool with
          tasks := Function.update pool.tasks pool.spawned (some (body call))
          spawned := pool.spawned + 1 }
  | perform {pool : Pool Op Reply ε α σ} {n : Nat} {op : Op}
      {resume : Reply op → Program Op Reply ε α} {reply : Reply op} {s : σ}
      (running : pool.tasks n = some (.await op resume))
      (effect : env op pool.shared reply s) :
      Step pool (.performed n op reply)
        { pool with
          shared := s
          tasks := Function.update pool.tasks n (some (resume reply)) }
  | stop {pool : Pool Op Reply ε α σ} {n : Nat} (running : (pool.tasks n).isSome) :
      Step pool (.stopped n) { pool with tasks := Function.update pool.tasks n none }

/-- A finite run from the initial pool, with its recorded events. -/
inductive Run (s₀ : σ) : List (Event Op Reply Call) → Pool Op Reply ε α σ → Prop
  | nil : Run s₀ [] (Pool.initial s₀)
  | snoc {trace pool event next} (run : Run s₀ trace pool)
      (step : Step body env pool event next) : Run s₀ (trace ++ [event]) next

variable {body env} {s₀ : σ} {trace : List (Event Op Reply Call)} {pool : Pool Op Reply ε α σ}

variable {n : Nat}

/-- A task that has not been started runs no program and has no events. -/
theorem Run.fresh (run : Run body env s₀ trace pool) (h : pool.spawned ≤ n) :
    pool.tasks n = none ∧ ownEvents n trace = [] := by
  induction run with
  | nil => exact ⟨rfl, rfl⟩
  | @snoc trace pool event next run step ih =>
      cases step with
      | start call =>
          have hlt : pool.spawned ≤ n ∧ n ≠ pool.spawned := by
            dsimp only at h
            omega
          rw [ownEvents_snoc_other _ (by simpa using hlt.2.symm)]
          simpa [Function.update_of_ne hlt.2] using ih hlt.1
      | @perform m op resume reply s running effect =>
          have hne : n ≠ m := by
            rintro rfl
            rw [(ih h).1] at running
            cases running
          rw [ownEvents_snoc_other _ (by simpa using hne.symm)]
          simpa [Function.update_of_ne hne] using ih h
      | @stop m running =>
          have hne : n ≠ m := by
            rintro rfl
            rw [(ih h).1] at running
            cases running
          rw [ownEvents_snoc_other _ (by simpa using hne.symm)]
          simpa [Function.update_of_ne hne] using ih h

variable {p : Program Op Reply ε α}

/-- A task that runs a program has been started. -/
theorem Run.exists_started (run : Run body env s₀ trace pool) (h : pool.tasks n = some p) :
    ∃ call, .started n call ∈ trace := by
  induction run generalizing p with
  | nil => cases h
  | @snoc trace pool event next run step ih =>
      have hearlier {q : Program Op Reply ε α} (hq : pool.tasks n = some q) :
          ∃ call, .started n call ∈ trace ++ [event] :=
        (ih hq).imp fun _ => List.mem_append_left _
      cases step with
      | start call =>
          by_cases hn : n = pool.spawned
          · subst hn
            exact ⟨call, List.mem_append_right _ (List.mem_singleton.mpr rfl)⟩
          · exact hearlier (by simpa [Function.update_of_ne hn] using h)
      | @perform m op resume reply s running effect =>
          by_cases hn : n = m
          · subst hn
            exact hearlier running
          · exact hearlier (by simpa [Function.update_of_ne hn] using h)
      | @stop m running =>
          by_cases hn : n = m
          · subst hn
            simp at h
          · exact hearlier (by simpa [Function.update_of_ne hn] using h)

/-- A task is started at most once, so its call is unique. -/
theorem Run.started_unique (run : Run body env s₀ trace pool) {call call' : Call}
    (h : .started n call ∈ trace) (h' : .started n call' ∈ trace) : call = call' := by
  induction run with
  | nil => cases h
  | @snoc trace pool event next run step ih =>
      have hfresh {c : Call} (hc : .started pool.spawned c ∈ trace) : False := by
        have hown := mem_ownEvents.mpr ⟨hc, Event.task_started _ c⟩
        rw [(run.fresh (Nat.le_refl _)).2] at hown
        cases hown
      rcases List.mem_append.mp h with hold | hlast <;>
        rcases List.mem_append.mp h' with hold' | hlast'
      · exact ih hold hold'
      · cases step with
        | start c =>
            obtain ⟨rfl, -⟩ : n = pool.spawned ∧ call' = c := by simpa using hlast'
            exact (hfresh hold).elim
        | _ => simp at hlast'
      · cases step with
        | start c =>
            obtain ⟨rfl, -⟩ : n = pool.spawned ∧ call = c := by simpa using hlast
            exact (hfresh hold').elim
        | _ => simp at hlast
      · cases step with
        | start c =>
            obtain ⟨-, rfl⟩ : n = pool.spawned ∧ call = c := by simpa using hlast
            obtain ⟨-, rfl⟩ : n = pool.spawned ∧ call' = call := by simpa using hlast'
            rfl
        | _ => simp at hlast

variable (env)

/-- A program keeps the invariant from the given own events on, whatever other
tasks do in between, and ends with the postcondition on its own events. -/
inductive Safe (inv : List (Event Op Reply Call) → σ → Prop) (task : Nat)
    (post : Except ε α → List (Event Op Reply Call) → Prop) :
    Program Op Reply ε α → List (Event Op Reply Call) → Prop
  | done {a : α} {own : List (Event Op Reply Call)} (holds : post (.ok a) own) :
      Safe inv task post (.done a) own
  | raised {e : ε} {own : List (Event Op Reply Call)} (holds : post (.error e) own) :
      Safe inv task post (.raised e) own
  | await {op : Op} {resume : Reply op → Program Op Reply ε α}
      {own : List (Event Op Reply Call)}
      (keeps : ∀ trace s reply s', inv trace s → ownEvents task trace = own → env op s reply s' →
        inv (trace ++ [Event.performed task op reply]) s')
      (rest : ∀ trace s reply s', inv trace s → ownEvents task trace = own → env op s reply s' →
        Safe inv task post (resume reply) (own ++ [Event.performed task op reply])) :
      Safe inv task post (.await op resume) own

variable (body)

/-- What a family of programs must establish for the invariant to hold in every run. -/
structure Verified (inv : List (Event Op Reply Call) → σ → Prop)
    (post : Nat → Except ε α → List (Event Op Reply Call) → Prop) (s₀ : σ) : Prop where
  init : inv [] s₀
  started : ∀ trace s n call, inv trace s → ownEvents n trace = [] →
    inv (trace ++ [Event.started n call]) s
  body_safe : ∀ n call, Safe env inv n (post n) (body call) [.started n call]
  stopped : ∀ trace s n, inv trace s → inv (trace ++ [Event.stopped n]) s

variable {body env} {inv : List (Event Op Reply Call) → σ → Prop}
  {post : Nat → Except ε α → List (Event Op Reply Call) → Prop}

/-- Every run keeps the invariant, and every running program remains safe. -/
theorem Run.safe (h : Verified body env inv post s₀) (run : Run body env s₀ trace pool) :
    inv trace pool.shared ∧
      ∀ n p, pool.tasks n = some p → Safe env inv n (post n) p (ownEvents n trace) := by
  induction run with
  | nil => exact ⟨h.init, fun _ _ hp => by cases hp⟩
  | @snoc trace pool event next run step ih =>
      obtain ⟨hinv, hsafe⟩ := ih
      cases step with
      | start call =>
          have hfresh := (run.fresh (Nat.le_refl _)).2
          refine ⟨h.started _ _ _ call hinv hfresh, fun n p hp => ?_⟩
          by_cases hn : n = pool.spawned
          · subst hn
            obtain rfl : body call = p := by simpa using hp
            rw [ownEvents_snoc_self _ (Event.task_started _ call), hfresh]
            exact h.body_safe _ call
          · rw [ownEvents_snoc_other _ (by simpa using fun he => hn he.symm)]
            exact hsafe n p (by simpa [Function.update_of_ne hn] using hp)
      | @perform n op resume reply s running effect =>
          have hawait := hsafe n _ running
          cases hawait with
          | await keeps rest =>
          have hcont := rest trace _ reply s hinv rfl effect
          refine ⟨keeps trace _ reply s hinv rfl effect, fun m p hp => ?_⟩
          by_cases hne : m = n
          · subst hne
            obtain rfl : resume reply = p := by simpa using hp
            rwa [ownEvents_snoc_self _ (Event.task_performed _ op reply)]
          · rw [ownEvents_snoc_other _ (by simpa using fun he => hne he.symm)]
            exact hsafe m p (by simpa [Function.update_of_ne hne] using hp)
      | @stop n running =>
          refine ⟨h.stopped _ _ n hinv, fun m p hp => ?_⟩
          have hne : m ≠ n := by
            rintro rfl
            simp at hp
          rw [ownEvents_snoc_other _ (by simpa using hne.symm)]
          exact hsafe m p (by simpa [Function.update_of_ne hne] using hp)

/-- Every run keeps the invariant of a verified family of programs. -/
theorem Run.invariant (h : Verified body env inv post s₀) (run : Run body env s₀ trace pool) :
    inv trace pool.shared :=
  (run.safe h).1

variable {task : Nat} {own : List (Event Op Reply Call)}

/-- An awaited operation is safe if the invariant and the continuation are, reply by reply. -/
theorem Safe.of_await {post : Except ε α → List (Event Op Reply Call) → Prop}
    {op : Op} {resume : Reply op → Program Op Reply ε α} (h : ∀ trace s reply s', inv trace s → ownEvents task trace = own → env op s reply s' →
      inv (trace ++ [Event.performed task op reply]) s' ∧
        Safe env inv task post (resume reply) (own ++ [Event.performed task op reply])) :
    Safe env inv task post (.await op resume) own :=
  .await (fun trace s reply s' hinv hown heff => (h trace s reply s' hinv hown heff).1)
    (fun trace s reply s' hinv hown heff => (h trace s reply s' hinv hown heff).2)

/-- A safe first part may be followed by any program that its result makes safe. -/
theorem Safe.bind {β : Type u} {first : Except ε α → List (Event Op Reply Call) → Prop}
    {post : Except ε β → List (Event Op Reply Call) → Prop} {f : α → Program Op Reply ε β}
    (h : Safe env inv task first p own)
    (hok : ∀ a events, first (.ok a) events → Safe env inv task post (f a) events)
    (herror : ∀ e events, first (.error e) events → post (.error e) events) :
    Safe env inv task post (p >>= f) own := by
  induction h with
  | done holds => exact hok _ _ holds
  | raised holds => exact .raised (herror _ _ holds)
  | await keeps _ ih => exact .await keeps ih

/-- Safety is monotone in the postcondition. -/
theorem Safe.mono {post post' : Except ε α → List (Event Op Reply Call) → Prop}
    (hpost : ∀ result events, post result events → post' result events)
    (h : Safe env inv task post p own) : Safe env inv task post' p own := by
  induction h with
  | done holds => exact .done (hpost _ _ holds)
  | raised holds => exact .raised (hpost _ _ holds)
  | await keeps _ ih => exact .await keeps ih

/-- A safe program also ends the way its structure says. -/
theorem Safe.and_ends {post : Except ε α → List (Event Op Reply Call) → Prop}
    {P : Except ε α → Prop} (h : Safe env inv task post p own) (hends : p.Ends P) :
    Safe env inv task (fun result events => post result events ∧ P result) p own := by
  induction h with
  | done holds =>
      cases hends with
      | done hP => exact .done ⟨holds, hP⟩
  | raised holds =>
      cases hends with
      | raised hP => exact .raised ⟨holds, hP⟩
  | await keeps _ ih =>
      cases hends with
      | await hrest =>
          refine .await keeps fun trace s reply s' hinv hown heff => ?_
          exact ih trace s reply s' hinv hown heff (hrest reply)

/-- A safe program only adds to the own events it starts from. -/
theorem Safe.and_extends {post : Except ε α → List (Event Op Reply Call) → Prop}
    (h : Safe env inv task post p own) :
    Safe env inv task (fun result events => post result events ∧ own <+: events) p own := by
  induction h with
  | done holds => exact .done ⟨holds, List.prefix_rfl⟩
  | raised holds => exact .raised ⟨holds, List.prefix_rfl⟩
  | await keeps _ ih =>
      refine .await keeps fun trace s reply s' hinv hown heff => ?_
      refine (ih trace s reply s' hinv hown heff).mono fun result events hpost => ?_
      exact ⟨hpost.1, (List.prefix_append _ _).trans hpost.2⟩

/-- A program is safe if each of its operations keeps the invariant of every trace that
holds the task's own events so far. It adds only such operations to them. -/
theorem Safe.of_onlyAwaits {allowed : Op → Prop} (keeps : ∀ trace s op reply s', allowed op → (∀ event ∈ own, event ∈ trace) → inv trace s →
      env op s reply s' → inv (trace ++ [Event.performed task op reply]) s')
    (h : p.OnlyAwaits allowed) :
    Safe env inv task
      (fun _ events => ∃ more, events = own ++ more ∧
        ∀ event ∈ more, ∃ op reply, allowed op ∧ event = .performed task op reply) p own := by
  have hrest (more : List (Event Op Reply Call))
      (hmore : ∀ event ∈ more, ∃ op reply, allowed op ∧ event = .performed task op reply) :
      Safe env inv task
        (fun _ events => ∃ more, events = own ++ more ∧
          ∀ event ∈ more, ∃ op reply, allowed op ∧ event = .performed task op reply)
        p (own ++ more) := by
    induction h generalizing more with
    | done a => exact .done ⟨more, rfl, hmore⟩
    | raised e => exact .raised ⟨more, rfl, hmore⟩
    | @await op resume permitted _ ih =>
        refine .of_await fun trace s reply s' hinv hown heff => ?_
        have hsub : ∀ event ∈ own, event ∈ trace := by
          intro event hevent
          have hmem : event ∈ ownEvents task trace := hown ▸ List.mem_append_left more hevent
          exact (mem_ownEvents.mp hmem).1
        refine ⟨keeps trace s op reply s' permitted hsub hinv heff, ?_⟩
        rw [List.append_assoc]
        apply ih reply
        intro event hevent
        rcases List.mem_append.mp hevent with hevent | hevent
        · exact hmore event hevent
        · obtain rfl := List.mem_singleton.mp hevent
          exact ⟨op, reply, permitted, rfl⟩
  simpa using hrest [] (by simp)

/-- After a first part whose operations all keep the invariant, it remains to
verify the continuation on the extended own events. -/
theorem Safe.bind_onlyAwaits {β : Type u} {allowed : Op → Prop} {post : Except ε β → List (Event Op Reply Call) → Prop} (keeps : ∀ trace s op reply s', allowed op → (∀ event ∈ own, event ∈ trace) → inv trace s →
      env op s reply s' → inv (trace ++ [Event.performed task op reply]) s')
    (h : p.OnlyAwaits allowed) {f : α → Program Op Reply ε β}
    (hok : ∀ a more, (∀ event ∈ more, ∃ op reply, allowed op ∧ event = .performed task op reply) →
      Safe env inv task post (f a) (own ++ more))
    (herror : ∀ e more,
      (∀ event ∈ more, ∃ op reply, allowed op ∧ event = .performed task op reply) →
      post (.error e) (own ++ more)) :
    Safe env inv task post (p >>= f) own := by
  refine (Safe.of_onlyAwaits keeps h).bind ?_ ?_
  · rintro a events ⟨more, rfl, hmore⟩
    exact hok a more hmore
  · rintro e events ⟨more, rfl, hmore⟩
    exact herror e more hmore

section Guarded
variable (body : Call → Program Op Reply ε α) (env : (op : Op) → σ → Reply op → σ → Prop)
  (guard : List (Event Op Reply Call) → σ → Event Op Reply Call → Prop)

/-- One step from a pool that recorded events led to, where the step meets the condition. -/
def Advances (c c' : List (Event Op Reply Call) × Pool Op Reply ε α σ) : Prop :=
  ∃ event, c'.1 = c.1 ++ [event] ∧ Step body env c.2 event c'.2 ∧ guard c.1 c.2.shared event

variable {body env guard} {c c' : List (Event Op Reply Call) × Pool Op Reply ε α σ}

theorem Run.of_advances (run : Run body env s₀ c.1 c.2)
    (h : Relation.ReflTransGen (Advances body env guard) c c') : Run body env s₀ c'.1 c'.2 := by
  induction h with
  | refl => exact run
  | tail _ hstep ih =>
      obtain ⟨event, htrace, step, -⟩ := hstep
      rw [htrace]
      exact ih.snoc step

/-- A run whose events meet the condition is one of steps that meet it. -/
theorem Run.advances (run : Run body env s₀ trace pool)
    (h : ∀ earlier p event next, Run body env s₀ earlier p → Step body env p event next →
      earlier ++ [event] <+: trace → guard earlier p.shared event) :
    Relation.ReflTransGen (Advances body env guard) ([], Pool.initial s₀) (trace, pool) := by
  induction run with
  | nil => exact .refl
  | @snoc trace pool event next run step ih =>
      refine .tail (ih fun earlier p e next' hrun hstep hsub => ?_) ⟨event, rfl, step, ?_⟩
      · exact h earlier p e next' hrun hstep (hsub.trans (List.prefix_append _ _))
      · exact h trace pool event next run step List.prefix_rfl

theorem prefix_of_advances (h : Relation.ReflTransGen (Advances body env guard) c c') :
    c.1 <+: c'.1 := by
  induction h with
  | refl => exact List.prefix_rfl
  | tail _ hstep ih =>
      obtain ⟨event, htrace, -⟩ := hstep
      rw [htrace]
      exact ih.trans (List.prefix_append _ _)

/-- What each step that meets the condition says about its event and those before it holds of every
event of a run. -/
theorem eachAfter_of_step {P : List (Event Op Reply Call) → Event Op Reply Call → Prop}
    (hstep : ∀ trace pool event next, Run body env s₀ trace pool → Step body env pool event next →
      guard trace pool.shared event → P trace event)
    (h : Relation.ReflTransGen (Advances body env guard) ([], Pool.initial s₀) c) :
    EachAfter P c.1 := by
  induction h with
  | refl => exact eachAfter_nil
  | @tail c c' hsteps hlast ih =>
      obtain ⟨event, htrace, step, hguard⟩ := hlast
      rw [htrace]
      exact eachAfter_snoc.mpr
        ⟨ih, hstep c.1 c.2 event c'.2 (Run.nil.of_advances hsteps) step hguard⟩

/-- Every event of a run met the condition in the state it was taken in. -/
theorem eachAfter_of_advances (h : Relation.ReflTransGen (Advances body env guard) c c')
    (hc : EachAfter (fun earlier event => ∃ s, guard earlier s event) c.1) :
    EachAfter (fun earlier event => ∃ s, guard earlier s event) c'.1 := by
  induction h with
  | refl => exact hc
  | tail _ hstep ih =>
      obtain ⟨event, htrace, -, hguard⟩ := hstep
      rw [htrace]
      exact eachAfter_snoc.mpr ⟨ih, _, hguard⟩

/-- Events of a kind are at most one if each turns on a condition of the state that no step turns
off and under which no other one happens. -/
theorem atMostOnce_of_advances {Q : Event Op Reply Call → Prop} {D : σ → Prop}
    (hstep : ∀ trace pool event next, Run body env s₀ trace pool → Step body env pool event next →
      guard trace pool.shared event →
        (Q event → ¬ D pool.shared ∧ D next.shared) ∧ (D pool.shared → D next.shared))
    (h : Relation.ReflTransGen (Advances body env guard) ([], Pool.initial s₀) c) :
    AtMostOnce Q c.1 := by
  have hall : AtMostOnce Q c.1 ∧ ∀ e ∈ c.1, Q e → D c.2.shared := by
    induction h with
    | refl => exact ⟨atMostOnce_nil, nofun⟩
    | @tail c c' hsteps hlast ih =>
        obtain ⟨trace', next⟩ := c'
        obtain ⟨event, htrace, step, hguard⟩ := hlast
        dsimp only at htrace step
        subst htrace
        obtain ⟨hset, hkept⟩ := hstep c.1 c.2 event next (Run.nil.of_advances hsteps) step hguard
        refine ⟨atMostOnce_snoc.mpr ⟨ih.1, fun hQ e he hQe => ?_⟩, fun e he hQe => ?_⟩
        · exact (hset hQ).1 (ih.2 e he hQe)
        · obtain hold | hnew := List.mem_append.mp he
          · exact hkept (ih.2 e hold hQe)
          · obtain rfl := List.mem_singleton.mp hnew
            exact (hset hQe).2
  exact hall.1

end Guarded

section Schedules
variable (answer : (op : Op) → σ → Reply op × σ)

/-- One decision of a schedule. -/
inductive Move (Call : Type u) : Type u
  | start (call : Call)
  | perform (task : Nat)
  | stop (task : Nat)

/-- Carry out one decision, answering an awaited operation from the current
state. A decision about a task that cannot take it changes nothing. -/
def Pool.advance (body : Call → Program Op Reply ε α)
    (state : List (Event Op Reply Call) × Pool Op Reply ε α σ) :
    Move Call → List (Event Op Reply Call) × Pool Op Reply ε α σ
  | .start call =>
      (state.1 ++ [Event.started state.2.spawned call],
        { state.2 with
          tasks := Function.update state.2.tasks state.2.spawned (some (body call))
          spawned := state.2.spawned + 1 })
  | .perform n =>
      match state.2.tasks n with
      | some (.await op resume) =>
          (state.1 ++ [Event.performed n op (answer op state.2.shared).1],
            { state.2 with
              shared := (answer op state.2.shared).2
              tasks := Function.update state.2.tasks n
                (some (resume (answer op state.2.shared).1)) })
      | _ => state
  | .stop n =>
      if (state.2.tasks n).isSome then
        (state.1 ++ [Event.stopped n],
          { state.2 with tasks := Function.update state.2.tasks n none })
      else state

/-- Carry out a schedule from the initial pool. -/
def Pool.play (body : Call → Program Op Reply ε α) (s₀ : σ) (moves : List (Move Call)) :
    List (Event Op Reply Call) × Pool Op Reply ε α σ :=
  moves.foldl (Pool.advance answer body) ([], Pool.initial s₀)

variable {answer}

variable (sound : ∀ op s, env op s (answer op s).1 (answer op s).2)
include sound

/-- A decision changes nothing or takes one step. -/
theorem Pool.advance_cases (state : List (Event Op Reply Call) × Pool Op Reply ε α σ)
    (move : Move Call) :
    Pool.advance answer body state move = state ∨
      ∃ event, (Pool.advance answer body state move).1 = state.1 ++ [event] ∧
        Step body env state.2 event (Pool.advance answer body state move).2 := by
  cases move with
  | start call => exact .inr ⟨_, rfl, .start _ call⟩
  | perform n =>
      cases htask : state.2.tasks n with
      | none => exact .inl (by simp [Pool.advance, htask])
      | some p =>
          cases p with
          | done a => exact .inl (by simp [Pool.advance, htask])
          | raised e => exact .inl (by simp [Pool.advance, htask])
          | await op resume =>
              refine .inr ⟨.performed n op (answer op state.2.shared).1, ?_, ?_⟩
              · simp [Pool.advance, htask]
              · simpa [Pool.advance, htask] using Step.perform htask (sound op _)
  | stop n =>
      by_cases htask : (state.2.tasks n).isSome
      · refine .inr ⟨.stopped n, ?_, ?_⟩
        · simp [Pool.advance, htask]
        · simpa [Pool.advance, htask] using Step.stop htask
      · exact .inl (by simp [Pool.advance, htask])

theorem Run.advance {state : List (Event Op Reply Call) × Pool Op Reply ε α σ}
    (run : Run body env s₀ state.1 state.2) (move : Move Call) :
    Run body env s₀ (Pool.advance answer body state move).1
      (Pool.advance answer body state move).2 := by
  obtain hsame | ⟨event, htrace, step⟩ := Pool.advance_cases sound state move
  · rw [hsame]
    exact run
  · rw [htrace]
    exact run.snoc step

/-- Every schedule whose answers the environment admits is a run. -/
theorem Run.play (moves : List (Move Call)) :
    Run body env s₀ (Pool.play answer body s₀ moves).1 (Pool.play answer body s₀ moves).2 := by
  have step (state : List (Event Op Reply Call) × Pool Op Reply ε α σ)
      (run : Run body env s₀ state.1 state.2) :
      Run body env s₀ (moves.foldl (Pool.advance answer body) state).1
        (moves.foldl (Pool.advance answer body) state).2 := by
    induction moves generalizing state with
    | nil => exact run
    | cons move rest ih => exact ih _ (run.advance sound move)
  exact step ([], Pool.initial s₀) .nil

/-- Whether all steps of a schedule pass a check, from the given pool on. -/
def Pool.passes (answer : (op : Op) → σ → Reply op × σ) (body : Call → Program Op Reply ε α)
    (check : List (Event Op Reply Call) → σ → Event Op Reply Call → Bool) :
    List (Event Op Reply Call) × Pool Op Reply ε α σ → List (Move Call) → Bool
  | _, [] => true
  | state, move :: rest =>
      let next := Pool.advance answer body state move
      (next.1.drop state.1.length).all (check state.1 state.2.shared) &&
        passes answer body check next rest

/-- A schedule whose steps pass a check of the condition takes steps that meet it. -/
theorem advances_play {guard : List (Event Op Reply Call) → σ → Event Op Reply Call → Prop}
    {check : List (Event Op Reply Call) → σ → Event Op Reply Call → Bool}
    (hcheck : ∀ trace s event, check trace s event = true → guard trace s event)
    {moves : List (Move Call)}
    (h : Pool.passes answer body check ([], Pool.initial s₀) moves = true) :
    Relation.ReflTransGen (Advances body env guard) ([], Pool.initial s₀)
      (Pool.play answer body s₀ moves) := by
  have steps (state : List (Event Op Reply Call) × Pool Op Reply ε α σ)
      (hpasses : Pool.passes answer body check state moves = true) :
      Relation.ReflTransGen (Advances body env guard) state
        (moves.foldl (Pool.advance answer body) state) := by
    clear h
    induction moves generalizing state with
    | nil => exact .refl
    | cons move rest ih =>
        rw [Pool.passes, Bool.and_eq_true] at hpasses
        have hrest := ih _ hpasses.2
        obtain hsame | ⟨event, htrace, step⟩ := Pool.advance_cases sound state move
        · rw [hsame] at hrest
          rw [List.foldl_cons, hsame]
          exact hrest
        · refine .head ⟨event, htrace, step, hcheck _ _ _ ?_⟩ hrest
          have hall := hpasses.1
          rw [htrace, List.drop_left, List.all_cons, Bool.and_eq_true] at hall
          exact hall.1
  exact steps ([], Pool.initial s₀) h

end Schedules

end Runs

end CopilotRuntime.Foundation
