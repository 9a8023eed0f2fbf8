import CopilotRuntime.Effects.ApprovalAuthority

/-!
# Commit commands of accepted approvals

A decision is appended to the ledger first, and an approval's command is
handed to the outbox afterwards. Whoever reads the stage between the two finds
it approved and takes the idempotent return, which enqueues nothing. Here the
approval is followed from its append to the outbox, and the reads that fall
between the two are named.

## Implementation notes

An approval waits from the append its call saw until some enqueue of its
command has returned. A call that is stopped, or whose enqueue raises, leaves
its approval waiting for good.
-/

namespace CopilotRuntime.Effects

open Foundation

/-- The stager calls on one ledger and one outbox. -/
inductive StagerCall
  | stage (request : StageRequest) (stageId now : String)
  | bindProjection (request : BindProjectionRequest) (now : String)
  | revise (request : ReviseRequest) (now : String)
  | recordRowDecisions (request : RowDecisionsRequest) (now : String)
  | decide (request : DecideRequest) (now : String)

def StagerCall.body (sha256 : String → String) : StagerCall → EffectProgram EffectStageState
  | stage request stageId now => Effects.stage sha256 request stageId now
  | bindProjection request now => Effects.bindProjection sha256 request now
  | revise request now => Effects.revise sha256 request now
  | recordRowDecisions request now => Effects.recordRowDecisions sha256 request now
  | decide request now => Effects.decide sha256 request now

abbrev StagerEvent := Event EffectOp EffectOp.Reply StagerCall

/-- The event records an approval the fold can read. -/
def Approves (e : StructuralEvent) : Prop :=
  ∃ d, EffectStageFold.readDecision e = some d ∧ d.decision = .approve

/-- The command names the event as its decision. -/
def CommandFor (c : EffectCommitCommand) (e : StructuralEvent) : Prop :=
  c.runId = e.runId ∧ c.decisionLedgerId = e.ledgerId

/-- The outbox has accepted a command for the event. -/
def Queued (w : EffectWorld) (e : StructuralEvent) : Prop := ∃ c ∈ w.outbox, CommandFor c e

/-- A task's call is a decision to approve. -/
def IsApproveCall (trace : List StagerEvent) (n : Nat) : Prop :=
  ∃ r now, .started n (.decide r now) ∈ trace ∧ r.decision = .approve

/-- The task saw its append return the event. -/
def Appended (trace : List StagerEvent) (n : Nat) (e : StructuralEvent) : Prop :=
  ∃ scope draft, .performed n (.appendStageEvent scope draft) (.ok e) ∈ trace

/-- Some enqueue of a command for the event has returned. -/
def Enqueued (trace : List StagerEvent) (e : StructuralEvent) : Prop :=
  ∃ m c, .performed m (.enqueueAfterDecision c) (.ok ()) ∈ trace ∧ CommandFor c e

/-- The task appended an approval whose command the outbox has not accepted yet. -/
def Waits (trace : List StagerEvent) (n : Nat) (e : StructuralEvent) : Prop :=
  Appended trace n e ∧ Approves e ∧ ¬Enqueued trace e

/-- No approve call reads a stage while another call's approval of it waits. -/
def ReadsNothingWaiting (earlier : List StagerEvent) : StagerEvent → Prop
  | .performed m (.listStageEvents scope stageId) _ =>
      IsApproveCall earlier m → ∀ n e, n ≠ m → Waits earlier n e → e.runId = scope.runId →
        Payload.string e.payload "stage_id" ≠ some stageId
  | _ => True

/-- An append that raises has recorded no approval. -/
def RaisesBeforeApproval : (op : EffectOp) → EffectWorld → op.Reply → EffectWorld → Prop
  | .appendStageEvent _ _, w, .error _, w' =>
      ∀ e ∈ w'.ledger.events, Approves e → e ∈ w.ledger.events
  | _, _, _, _ => True

/-- The environment without unacknowledged approvals. -/
def acknowledgedEnv (op : EffectOp) (w : EffectWorld) (reply : op.Reply) (w' : EffectWorld) :
    Prop :=
  EffectWorld.env op w reply w' ∧ RaisesBeforeApproval op w reply w'

/-- A ledger and outbox left behind by calls that ran to their end. -/
structure Accounted (w : EffectWorld) : Prop where
  ordered : w.ledger.Ordered
  bound : ∀ b ∈ w.ledger.bindings, b.2.2.runId = b.1.1
  queued : ∀ e ∈ w.ledger.events, Approves e → Queued w e

theorem accounted_empty : Accounted EffectWorld.empty where
  ordered := StageLedger.ordered_empty
  bound _ h := by cases h
  queued _ h := by cases h

/-- What every reachable trace and world satisfy. -/
structure CommandInvariant (trace : List StagerEvent) (w : EffectWorld) : Prop where
  ordered : w.ledger.Ordered
  bound : ∀ b ∈ w.ledger.bindings, b.2.2.runId = b.1.1
  unique : ∀ n call call', .started n call ∈ trace → .started n call' ∈ trace → call = call'
  recorded : ∀ e ∈ w.ledger.events, Approves e → Queued w e ∨ ∃ n, Appended trace n e
  enqueued : ∀ m c, .performed m (.enqueueAfterDecision c) (.ok ()) ∈ trace → c ∈ w.outbox
  read : EachAfter ReadsNothingWaiting trace → ∀ m scope stageId history,
    IsApproveCall trace m → .performed m (.listStageEvents scope stageId) (.ok history) ∈ trace →
      history <+: w.ledger.stageEvents scope.runId stageId ∧
        ∀ e ∈ history, Approves e → Queued w e

section Traces
variable {trace : List StagerEvent} {event : StagerEvent} {n : Nat} {e : StructuralEvent}

theorem Appended.snoc (h : Appended trace n e) : Appended (trace ++ [event]) n e := by
  obtain ⟨scope, draft, hmem⟩ := h
  exact ⟨scope, draft, List.mem_append_left _ hmem⟩

theorem appended_own : Appended (ownEvents n trace) n e ↔ Appended trace n e := by
  constructor
  · rintro ⟨scope, draft, hmem⟩
    exact ⟨scope, draft, (mem_ownEvents.mp hmem).1⟩
  · rintro ⟨scope, draft, hmem⟩
    exact ⟨scope, draft, mem_ownEvents.mpr ⟨hmem, rfl⟩⟩

theorem Enqueued.of_own (h : Enqueued (ownEvents n trace) e) : Enqueued trace e := by
  obtain ⟨m, c, hmem, hfor⟩ := h
  exact ⟨m, c, (mem_ownEvents.mp hmem).1, hfor⟩

/-- Only the start of a task decides what it was called with. -/
theorem isApproveCall_snoc (h : ∀ m call, event ≠ .started m call) :
    IsApproveCall (trace ++ [event]) n ↔ IsApproveCall trace n := by
  constructor
  · rintro ⟨r, now, hmem, happrove⟩
    rcases List.mem_append.mp hmem with hold | hlast
    · exact ⟨r, now, hold, happrove⟩
    · exact (h n _ (List.mem_singleton.mp hlast).symm).elim
  · rintro ⟨r, now, hmem, happrove⟩
    exact ⟨r, now, List.mem_append_left _ hmem, happrove⟩

end Traces

namespace CommandInvariant
variable {trace : List StagerEvent} {w w' : EffectWorld} {n : Nat}

variable (inv : CommandInvariant trace w)
include inv

/-- A step that is no start, read, or enqueue only has to account for new approvals. -/
theorem snoc_of_ledger {event : StagerEvent} {l : StageLedger}
    (noStart : ∀ m call, event ≠ .started m call)
    (noRead : ∀ m scope stageId history,
      event ≠ .performed m (.listStageEvents scope stageId) (.ok history))
    (noEnqueue : ∀ m c, event ≠ .performed m (.enqueueAfterDecision c) (.ok ()))
    (ordered : l.Ordered) (bound : ∀ b ∈ l.bindings, b.2.2.runId = b.1.1)
    (grows : ∀ runId stageId, w.ledger.stageEvents runId stageId <+: l.stageEvents runId stageId)
    (recorded : ∀ e ∈ l.events, Approves e → e ∈ w.ledger.events ∨ Appended (trace ++ [event]) n e) :
    CommandInvariant (trace ++ [event]) { w with ledger := l } where
  ordered := ordered
  bound := bound
  unique m call call' h h' := by
    rcases List.mem_append.mp h with h | h
    · rcases List.mem_append.mp h' with h' | h'
      · exact inv.unique m call call' h h'
      · exact (noStart _ _ (List.mem_singleton.mp h').symm).elim
    · exact (noStart _ _ (List.mem_singleton.mp h).symm).elim
  recorded e he happroves := by
    rcases recorded e he happroves with hold | hnew
    · rcases inv.recorded e hold happroves with hqueued | ⟨m, happended⟩
      · exact .inl hqueued
      · exact .inr ⟨m, happended.snoc⟩
    · exact .inr ⟨n, hnew⟩
  enqueued m c h := by
    rcases List.mem_append.mp h with h | h
    · exact inv.enqueued m c h
    · exact (noEnqueue _ _ (List.mem_singleton.mp h).symm).elim
  read quiet m scope stageId history happrove h := by
    rcases List.mem_append.mp h with h | h
    · obtain ⟨hpre, hqueued⟩ := inv.read (eachAfter_snoc.mp quiet).1 m scope stageId history
        ((isApproveCall_snoc noStart).mp happrove) h
      exact ⟨hpre.trans (grows scope.runId stageId), hqueued⟩
    · exact (noRead _ _ _ _ (List.mem_singleton.mp h).symm).elim

theorem started {call : StagerCall} (fresh : ownEvents n trace = []) :
    CommandInvariant (trace ++ [Event.started n call]) w := by
  have hfresh {event : StagerEvent} (h : event ∈ trace) : event.task ≠ n := by
    intro htask
    have hown := mem_ownEvents.mpr ⟨h, htask⟩
    rw [fresh] at hown
    cases hown
  refine ⟨inv.ordered, inv.bound, fun m c c' h h' => ?_, fun e he happroves => ?_,
    fun m c h => ?_, fun quiet m scope stageId history happrove h => ?_⟩
  · rcases List.mem_append.mp h with hold | hlast <;> rcases List.mem_append.mp h' with hold' | hlast'
    · exact inv.unique m c c' hold hold'
    · cases List.mem_singleton.mp hlast'
      exact absurd (Event.task_started _ _) (hfresh hold)
    · cases List.mem_singleton.mp hlast
      exact absurd (Event.task_started _ _) (hfresh hold')
    · cases List.mem_singleton.mp hlast
      cases List.mem_singleton.mp hlast'
      rfl
  · rcases inv.recorded e he happroves with hqueued | ⟨m, happended⟩
    · exact .inl hqueued
    · exact .inr ⟨m, happended.snoc⟩
  · rcases List.mem_append.mp h with h | h
    · exact inv.enqueued m c h
    · cases List.mem_singleton.mp h
  · rcases List.mem_append.mp h with hold | hlast
    · refine inv.read (eachAfter_snoc.mp quiet).1 m scope stageId history ?_ hold
      obtain ⟨r, now, hstart, hdecision⟩ := happrove
      rcases List.mem_append.mp hstart with hstart | hstart
      · exact ⟨r, now, hstart, hdecision⟩
      · cases List.mem_singleton.mp hstart
        exact absurd (Event.task_performed _ _ _) (hfresh hold)
    · cases List.mem_singleton.mp hlast

theorem stopped : CommandInvariant (trace ++ [Event.stopped n]) w :=
  inv.snoc_of_ledger (n := n) (by simp) (by simp) (by simp) inv.ordered inv.bound
    (fun _ _ => List.prefix_rfl) fun _ he _ => .inl he

/-- An append adds one later event, which its task sees unless the append raises. -/
theorem appended {scope : EffectStageScope} {draft : StageEventDraft}
    {reply : Except EffectError StructuralEvent}
    (env : acknowledgedEnv (.appendStageEvent scope draft) w reply w') :
    CommandInvariant (trace ++
        [Event.performed n (EffectOp.appendStageEvent scope draft) reply]) w' ∧
      ∀ e, reply = .ok e → e.runId = scope.runId := by
  obtain ⟨⟨l, happend, rfl⟩, hraises⟩ := env
  have hadvance (hordered : l.Ordered) (hbound : ∀ b ∈ l.bindings, b.2.2.runId = b.1.1)
      (hgrows : ∀ runId stageId,
        w.ledger.stageEvents runId stageId <+: l.stageEvents runId stageId)
      (hrecorded : ∀ e ∈ l.events, Approves e → e ∈ w.ledger.events ∨ reply = .ok e) :
      CommandInvariant (trace ++ [Event.performed n (EffectOp.appendStageEvent scope draft) reply])
        { w with ledger := l } := by
    refine inv.snoc_of_ledger (n := n) (fun _ _ h => by cases h) (fun _ _ _ _ h => by cases h)
      (fun _ _ h => by cases h) hordered hbound hgrows ?_
    intro e he happroves
    rcases hrecorded e he happroves with hold | rfl
    · exact .inl hold
    · exact .inr ⟨scope, draft, List.mem_append_right _ (List.mem_singleton.mpr rfl)⟩
  have hpush {event : StructuralEvent} (hrun : event.runId = scope.runId) :
      ∀ b ∈ (w.ledger.push draft event).bindings, b.2.2.runId = b.1.1 := by
    intro b hb
    rcases List.mem_append.mp hb with hb | hb
    · exact inv.bound b hb
    · obtain rfl := List.mem_singleton.mp hb
      rfl
  cases happend with
  | @replayed event bound =>
      refine ⟨hadvance inv.ordered inv.bound (fun _ _ => List.prefix_rfl)
        fun _ he _ => .inl he, ?_⟩
      rintro e he
      obtain rfl := Except.ok.inj he
      obtain ⟨b, hfind, hb⟩ := Option.map_eq_some_iff.mp bound
      have hkey := List.find?_some hfind
      have hrun := inv.bound b (List.mem_of_find?_eq_some hfind)
      simp only [decide_eq_true_eq] at hkey
      rw [hb, hkey] at hrun
      exact hrun
  | @appended event free run type payload next =>
      refine ⟨hadvance (inv.ordered.push draft next) (hpush run)
        (StageLedger.stageEvents_push _ _ _) fun e he _ => ?_, ?_⟩
      · rcases List.mem_append.mp he with he | he
        · exact .inl he
        · obtain rfl := List.mem_singleton.mp he
          exact .inr rfl
      · rintro e he
        obtain rfl := Except.ok.inj he
        exact run
  | @unacknowledged event error free run type payload next =>
      refine ⟨hadvance (inv.ordered.push draft next) (hpush run)
        (StageLedger.stageEvents_push _ _ _) fun e he happroves => ?_, fun e he => by cases he⟩
      exact .inl (hraises e he happroves)
  | failed error =>
      exact ⟨hadvance inv.ordered inv.bound (fun _ _ => List.prefix_rfl)
        fun _ he _ => .inl he, fun e he => by cases he⟩

/-- An enqueue only adds to the outbox. -/
theorem enqueuedAfter {command : EffectCommitCommand} {reply : Except EffectError Unit}
    (env : acknowledgedEnv (.enqueueAfterDecision command) w reply w') :
    CommandInvariant (trace ++
        [Event.performed n (EffectOp.enqueueAfterDecision command) reply]) w' := by
  have hworld : ∃ outbox, w' = { w with outbox := outbox } ∧ (∀ c ∈ w.outbox, c ∈ outbox) ∧
      (reply = .ok () → command ∈ outbox) := by
    obtain ⟨⟨_, rfl⟩ | ⟨e, rfl, rfl | rfl⟩, -⟩ := env
    · exact ⟨_, rfl, fun c hc => List.mem_append_left _ hc, by simp⟩
    · exact ⟨_, rfl, fun c hc => hc, by simp⟩
    · exact ⟨_, rfl, fun c hc => List.mem_append_left _ hc, by simp⟩
  obtain ⟨outbox, rfl, hgrows, hnew⟩ := hworld
  have hqueued {e : StructuralEvent} (h : Queued w e) : Queued { w with outbox := outbox } e := by
    obtain ⟨c, hc, hfor⟩ := h
    exact ⟨c, hgrows c hc, hfor⟩
  refine ⟨inv.ordered, inv.bound, fun m c c' h h' => ?_, fun e he happroves => ?_,
    fun m c h => ?_, fun quiet m scope stageId history happrove h => ?_⟩
  · exact inv.unique m c c' (by simpa using h) (by simpa using h')
  · rcases inv.recorded e he happroves with h | ⟨m, happended⟩
    · exact .inl (hqueued h)
    · exact .inr ⟨m, happended.snoc⟩
  · rcases List.mem_append.mp h with hold | hlast
    · exact hgrows c (inv.enqueued m c hold)
    · cases List.mem_singleton.mp hlast
      exact hnew rfl
  · rcases List.mem_append.mp h with hold | hlast
    · obtain ⟨hpre, hall⟩ := inv.read (eachAfter_snoc.mp quiet).1 m scope stageId history
        ((isApproveCall_snoc (by simp)).mp happrove) hold
      exact ⟨hpre, fun e he happroves => hqueued (hall e he happroves)⟩
    · cases List.mem_singleton.mp hlast

/-- A read that meets no waiting approval of another task, by a task with none of its own,
sees only approvals that are queued. -/
theorem listed {scope : EffectStageScope} {stageId : String}
    {reply : Except EffectError (List StructuralEvent)}
    (env : acknowledgedEnv (.listStageEvents scope stageId) w reply w')
    (settled : IsApproveCall trace n → ∀ e, Appended trace n e → Enqueued trace e) :
    CommandInvariant (trace ++
        [Event.performed n (EffectOp.listStageEvents scope stageId) reply]) w' := by
  obtain ⟨⟨hreply, rfl⟩, -⟩ := env
  have hold (quiet : EachAfter ReadsNothingWaiting
        (trace ++ [Event.performed n (EffectOp.listStageEvents scope stageId) reply]))
      (happrove : IsApproveCall trace n) (e : StructuralEvent)
      (he : e ∈ w'.ledger.stageEvents scope.runId stageId) (happroves : Approves e) :
      Queued w' e := by
    obtain ⟨hmem, hrun, hstage⟩ := StageLedger.mem_stageEvents.mp he
    rcases inv.recorded e hmem happroves with hqueued | ⟨m, happended⟩
    · exact hqueued
    · by_cases henqueued : Enqueued trace e
      · obtain ⟨k, c, hc, hfor⟩ := henqueued
        exact ⟨c, inv.enqueued k c hc, hfor⟩
      · by_cases hm : m = n
        · subst hm
          exact (henqueued (settled happrove e happended)).elim
        · exact absurd hstage ((eachAfter_snoc.mp quiet).2 happrove m e hm
            ⟨happended, happroves, henqueued⟩ hrun)
  refine ⟨inv.ordered, inv.bound, fun m c c' h h' => ?_, fun e he happroves => ?_,
    fun m c h => ?_, fun quiet m scope' stageId' history happrove h => ?_⟩
  · exact inv.unique m c c' (by simpa using h) (by simpa using h')
  · rcases inv.recorded e he happroves with h | ⟨m, happended⟩
    · exact .inl h
    · exact .inr ⟨m, happended.snoc⟩
  · rcases List.mem_append.mp h with hmem | hlast
    · exact inv.enqueued m c hmem
    · cases List.mem_singleton.mp hlast
  · have hcall := (isApproveCall_snoc (by simp)).mp happrove
    rcases List.mem_append.mp h with hmem | hlast
    · exact inv.read (eachAfter_snoc.mp quiet).1 m scope' stageId' history hcall hmem
    · cases List.mem_singleton.mp hlast
      rcases hreply with hread | ⟨e, he⟩
      · obtain rfl := Except.ok.inj hread
        exact ⟨List.prefix_rfl, hold quiet hcall⟩
      · cases he

end CommandInvariant

/-- An approve call that returns a state has read a history that folds to it. -/
def ReturnsFold (n : Nat) :
    Except EffectError EffectStageState → List StagerEvent → Prop
  | .ok state, events => ∀ r now, .started n (.decide r now) ∈ events → r.decision = .approve →
      ∃ history, .performed n (.listStageEvents r.scope r.stageId) (.ok history) ∈ events ∧
        EffectStageFold.fold history = some state
  | .error _, _ => True

section Safety
variable {n : Nat} {own : List StagerEvent} {α : Type}

abbrev KeepsCommands (n : Nat) (post : Except EffectError α → List StagerEvent → Prop)
    (p : EffectProgram α) (own : List StagerEvent) : Prop :=
  Safe acknowledgedEnv CommandInvariant n post p own

/-- A stager that does not approve may do anything a stager does. -/
theorem keepsCommands_of_stagerOp {p : EffectProgram EffectStageState} {call : StagerCall}
    (h : p.OnlyAwaits StagerOp)
    (noApprove : ∀ r now, call = .decide r now → r.decision ≠ .approve) :
    KeepsCommands n (ReturnsFold n) p [.started n call] := by
  refine (Safe.of_onlyAwaits (fun trace w op reply w' hop hsub inv env => ?_) h).mono ?_
  · have hcall : ¬IsApproveCall trace n := by
      rintro ⟨r, now, hmem, hdecision⟩
      have hsame := inv.unique n _ _ (hsub _ (List.mem_singleton.mpr rfl)) hmem
      exact noApprove r now hsame hdecision
    cases op with
    | listStageEvents scope stageId => exact inv.listed env fun happrove => (hcall happrove).elim
    | appendStageEvent scope draft => exact (inv.appended env).1
    | enqueueAfterDecision command => exact inv.enqueuedAfter env
    | _ => exact hop.elim
  · rintro result events ⟨more, rfl, hmore⟩
    cases result with
    | error e => trivial
    | ok state =>
        intro r now hmem hdecision
        rcases List.mem_append.mp hmem with hstart | hlater
        · cases List.mem_singleton.mp hstart
          exact (noApprove r now rfl hdecision).elim
        · obtain ⟨op, reply, _, heq⟩ := hmore _ hlater
          cases heq

/-- Reading a stage adds the read to the own events and returns the fold of its history. -/
theorem keepsCommands_getState (scope : EffectStageScope) (stageId : String)
    (settled : ∀ e, Appended own n e → Enqueued own e) :
    KeepsCommands n
      (fun result events => ∀ state, result = .ok state →
        ∃ history, EffectStageFold.fold history = some state ∧
          events = own ++
              [Event.performed n (EffectOp.listStageEvents scope stageId) (.ok history)])
      (getState scope stageId) own := by
  unfold getState
  split
  · unfold readState
    rw [perform_bind]
    refine .of_await fun trace w reply w' inv hown env => ?_
    refine ⟨inv.listed env fun _ e happended => ?_, ?_⟩
    · rw [← hown] at settled
      exact (settled e (appended_own.mpr happended)).of_own
    · cases reply with
      | error e => exact .raised fun _ h => by cases h
      | ok history =>
          rw [unwrap_ok, Program.done_bind]
          unfold foldedState
          cases hfold : EffectStageFold.fold history with
          | none => exact .raised fun _ h => by cases h
          | some state =>
              dsimp only
              split
              · refine .done fun state' h => ?_
                obtain rfl := Except.ok.inj h
                exact ⟨history, hfold, rfl⟩
              · exact .raised fun _ h => by cases h
  · exact .raised fun _ h => by cases h

/-- The own events name one decide call, and a read of its stage among them is a return. -/
theorem returnsFold_of_read {r : DecideRequest} {events : List StagerEvent}
    {history : List StructuralEvent} {state : EffectStageState}
    (starts : ∀ r' now, .started n (.decide r' now) ∈ events → r' = r)
    (read : .performed n (.listStageEvents r.scope r.stageId) (.ok history) ∈ events)
    (folded : EffectStageFold.fold history = some state) : ReturnsFold n (.ok state) events := by
  intro r' now hmem _
  obtain rfl := starts r' now hmem
  exact ⟨history, read, folded⟩

/-- An approval's command is handed to the outbox before the stage is read again. -/
theorem keepsCommands_append {r : DecideRequest} {draft : StageEventDraft}
    (approve : r.decision = .approve)
    (starts : ∀ r' now, .started n (.decide r' now) ∈ own → r' = r)
    (first : ∀ e, ¬Appended own n e) :
    KeepsCommands n (ReturnsFold n)
      (do
        let event ← unwrap (← perform (.appendStageEvent r.scope draft))
        enqueueApproved r event
        getState r.scope r.stageId) own := by
  rw [perform_bind]
  refine .of_await fun trace w reply w' inv _ env => ?_
  obtain ⟨hinv, hrun⟩ := inv.appended env
  refine ⟨hinv, ?_⟩
  cases reply with
  | error e => exact .raised trivial
  | ok event =>
      rw [unwrap_ok, Program.done_bind]
      unfold enqueueApproved
      rw [if_pos approve]
      split
      · rw [perform_bind, Program.await_bind]
        refine .of_await fun trace w reply w' inv _ env => ⟨inv.enqueuedAfter env, ?_⟩
        cases reply with
        | error e => exact .raised trivial
        | ok _ =>
            rw [unwrap_ok, Program.done_bind]
            refine (keepsCommands_getState r.scope r.stageId fun e happended => ?_).mono
              fun result events hread => ?_
            · obtain ⟨scope, draft', hmem⟩ := happended
              refine ⟨n, commitCommand r event, List.mem_append_right _ (List.mem_singleton.mpr rfl),
                ?_⟩
              rcases List.mem_append.mp hmem with hmem | hmem
              · rcases List.mem_append.mp hmem with hmem | hmem
                · exact (first e ⟨scope, draft', hmem⟩).elim
                · cases List.mem_singleton.mp hmem
                  exact ⟨(hrun event rfl).symm, rfl⟩
              · cases List.mem_singleton.mp hmem
            · cases result with
              | error e => trivial
              | ok state =>
              obtain ⟨history, hfold, rfl⟩ := hread state rfl
              refine returnsFold_of_read (fun r' now hmem => ?_)
                (List.mem_append_right _ (List.mem_singleton.mpr rfl)) hfold
              simp only [List.append_assoc, List.mem_append, List.mem_cons, List.not_mem_nil,
                or_false, reduceCtorEq] at hmem
              exact starts r' now hmem
      · exact .raised trivial

variable (sha256 : String → String)

theorem keepsCommands_decide (r : DecideRequest) (now : String) (approve : r.decision = .approve) :
    KeepsCommands n (ReturnsFold n) (decide sha256 r now) [.started n (.decide r now)] := by
  unfold decide validateIdempotencyKey
  split
  · rw [Program.done_bind]
    refine Safe.bind (keepsCommands_getState r.scope r.stageId fun e happended => ?_) ?_
      fun _ _ _ => trivial
    · obtain ⟨scope, draft, hmem⟩ := happended
      cases List.mem_singleton.mp hmem
    · intro state events hread
      obtain ⟨history, hfold, rfl⟩ := hread state rfl
      have hstarts (r' : DecideRequest) (now' : String)
          (hmem : .started n (.decide r' now') ∈
            ([.started n (.decide r now)] ++
              [.performed n (.listStageEvents r.scope r.stageId) (.ok history)] :
                List StagerEvent)) : r' = r := by
        rcases List.mem_append.mp hmem with hmem | hmem
        · cases List.mem_singleton.mp hmem
          rfl
        · cases List.mem_singleton.mp hmem
      cases hadmitted : admitDecision state r with
      | error e => exact .raised trivial
      | ok fresh =>
          cases fresh with
          | false =>
              exact .done (returnsFold_of_read hstarts
                (List.mem_append_right _ (List.mem_singleton.mpr rfl)) hfold)
          | true =>
              refine keepsCommands_append approve hstarts fun e happended => ?_
              obtain ⟨scope, draft, hmem⟩ := happended
              rcases List.mem_append.mp hmem with hmem | hmem <;>
                cases List.mem_singleton.mp hmem
  · exact .raised trivial

theorem commandsVerified {w₀ : EffectWorld} (accounted : Accounted w₀) :
    Verified (StagerCall.body sha256) acknowledgedEnv CommandInvariant ReturnsFold w₀ where
  init := {
    ordered := accounted.ordered
    bound := accounted.bound
    unique := fun _ _ _ h => by cases h
    recorded := fun e he happroves => .inl (accounted.queued e he happroves)
    enqueued := fun _ _ h => by cases h
    read := fun _ _ _ _ _ _ h => by cases h }
  started _ _ _ _ inv fresh := inv.started fresh
  body_safe n call := by
    cases call with
    | stage request stageId now =>
        exact keepsCommands_of_stagerOp (onlyAwaits_stage sha256 request stageId now)
          fun _ _ h => by cases h
    | bindProjection request now =>
        exact keepsCommands_of_stagerOp (onlyAwaits_bindProjection sha256 request now)
          fun _ _ h => by cases h
    | revise request now =>
        exact keepsCommands_of_stagerOp (onlyAwaits_revise sha256 request now)
          fun _ _ h => by cases h
    | recordRowDecisions request now =>
        exact keepsCommands_of_stagerOp (onlyAwaits_recordRowDecisions sha256 request now)
          fun _ _ h => by cases h
    | decide request now =>
        by_cases happrove : request.decision = .approve
        · exact keepsCommands_decide sha256 request now happrove
        · refine keepsCommands_of_stagerOp (onlyAwaits_decide sha256 request now) fun r _ h => ?_
          cases h
          exact happrove
  stopped _ _ _ inv := inv.stopped

end Safety

/-- Every approve call that returned an approved stage returned a decision whose command the
outbox has accepted. -/
def ApprovedHasCommand (trace : List StagerEvent)
    (pool : Pool EffectOp EffectOp.Reply EffectError EffectStageState EffectWorld) : Prop :=
  ∀ n r now state, .started n (.decide r now) ∈ trace → r.decision = .approve →
    pool.tasks n = some (.done state) → state.status = .approved →
    ∃ d, state.decision = some d ∧ d.decision = .approve ∧
      ∃ c ∈ pool.shared.outbox, c.runId = r.scope.runId ∧ c.decisionLedgerId = d.ledgerId

/-- If no approve call reads a stage while another call's approval of it waits for the outbox, and
no raising append has recorded an approval, then every accepted approval has its command. -/
theorem approved_decision_has_command (sha256 : String → String) {w₀ : EffectWorld}
    (accounted : Accounted w₀) {trace : List StagerEvent}
    {pool : Pool EffectOp EffectOp.Reply EffectError EffectStageState EffectWorld}
    (run : Run (StagerCall.body sha256) acknowledgedEnv w₀ trace pool)
    (quiet : EachAfter ReadsNothingWaiting trace) : ApprovedHasCommand trace pool := by
  intro n r now state started approve returned approved
  obtain ⟨inv, hsafe⟩ := run.safe (commandsVerified sha256 accounted)
  have hpost : ReturnsFold n (.ok state) (ownEvents n trace) := by
    cases hsafe n _ returned with
    | done holds => exact holds
  obtain ⟨history, hread, hfold⟩ :=
    hpost r now (mem_ownEvents.mpr ⟨started, Event.task_started _ _⟩) approve
  obtain ⟨d, hd, hkind⟩ := EffectStageFold.approvedByDecision_fold hfold approved
  obtain ⟨hpre, hqueued⟩ := inv.read quiet n r.scope r.stageId history
    ⟨r, now, started, approve⟩ (mem_ownEvents.mp hread).1
  have hincreasing := inv.ordered.stageEvents_increasing r.scope.runId r.stageId
  obtain ⟨event, hevent, _, _, hdecision⟩ :=
    EffectStageFold.decisionRecorded_fold (hincreasing.sublist hpre.sublist) hfold d hd
  obtain ⟨c, hc, hrun, hledger⟩ := hqueued event hevent ⟨d, hdecision, hkind⟩
  refine ⟨d, hd, hkind, c, hc, ?_, hledger.trans (ledgerId_readDecision hdecision).symm⟩
  exact hrun.trans (StageLedger.mem_stageEvents.mp (hpre.subset hevent)).2.1

/-- Nothing waits for another call when one call makes all approvals. -/
theorem readsNothingWaiting_of_single {trace : List StagerEvent} (n : Nat)
    (approver : ∀ m, IsApproveCall trace m → m = n)
    (approvals : ∀ m e, Appended trace m e → Approves e → m = n) :
    EachAfter ReadsNothingWaiting trace := by
  rintro earlier event later rfl
  unfold ReadsNothingWaiting
  split
  · next m scope stageId reply =>
      rintro ⟨r, now, hstart, happrove⟩ k e hne ⟨⟨scope', draft, hmem⟩, happroves, _⟩
      have hm := approver m ⟨r, now, List.mem_append_left _ hstart, happrove⟩
      have hk := approvals k e ⟨scope', draft, List.mem_append_left _ hmem⟩ happroves
      exact (hne (hk.trans hm.symm)).elim
  · trivial

namespace Sample

theorem append_error {l : StageLedger} {scope : EffectStageScope} {draft : StageEventDraft}
    {e : EffectError} (h : (l.append scope draft).1 = .error e) : (l.append scope draft).2 = l := by
  unfold StageLedger.append at h ⊢
  cases hbound : l.binding scope.runId draft.idempotencyKey with
  | some bound =>
      dsimp only
      split <;> rfl
  | none =>
      simp only [hbound] at h ⊢
      cases hid : LedgerIdCodec.format scope.runId (l.nextSequence scope.runId) with
      | none => rfl
      | some ledgerId =>
          simp only [hid] at h
          cases h

/-- A raising append answered from the ledger has recorded nothing. -/
theorem acknowledged_answer (external : (op : EffectOp) → op.Reply) (op : EffectOp)
    (w : EffectWorld) :
    acknowledgedEnv op w (EffectWorld.answer external op w).1
      (EffectWorld.answer external op w).2 := by
  refine ⟨EffectWorld.answer_sound external op w, ?_⟩
  cases op with
  | appendStageEvent scope draft =>
      change RaisesBeforeApproval (.appendStageEvent scope draft) w (w.ledger.append scope draft).1
        { w with ledger := (w.ledger.append scope draft).2 }
      cases hreply : (w.ledger.append scope draft).1 with
      | ok e => trivial
      | error e =>
          intro event hevent _
          rwa [append_error hreply] at hevent
  | _ => trivial

/-- The outbox refuses every command. -/
def outboxDown : (op : EffectOp) → EffectWorld → op.Reply × EffectWorld
  | .enqueueAfterDecision _, w => (.error (.external "outbox unavailable"), w)
  | op, w => EffectWorld.answer resolvedExternal op w

theorem outboxDown_sound (op : EffectOp) (w : EffectWorld) :
    EffectWorld.env op w (outboxDown op w).1 (outboxDown op w).2 := by
  cases op with
  | enqueueAfterDecision command => exact .inr ⟨_, rfl, .inl rfl⟩
  | _ => exact EffectWorld.answer_sound resolvedExternal _ w

/-- The task a recorded step starts as an approve call. -/
def approveCall : StagerEvent → Option Nat
  | .started n (.decide r _) => if r.decision = .approve then some n else none
  | _ => none

/-- The task whose append a recorded step shows to have recorded an approval. -/
def approvalAppended : StagerEvent → Option Nat
  | .performed n (.appendStageEvent _ _) (.ok e) =>
      if (EffectStageFold.readDecision e).any fun d => d.decision == .approve then some n else none
  | _ => none

theorem mem_approveCall {trace : List StagerEvent} {n : Nat} :
    n ∈ trace.filterMap approveCall ↔ IsApproveCall trace n := by
  rw [List.mem_filterMap]
  constructor
  · rintro ⟨event, hmem, hcall⟩
    unfold approveCall at hcall
    split at hcall
    · next m r now =>
        split at hcall
        · next happrove =>
            obtain rfl := Option.some.inj hcall
            exact ⟨r, now, hmem, happrove⟩
        · cases hcall
    · cases hcall
  · rintro ⟨r, now, hmem, happrove⟩
    exact ⟨_, hmem, if_pos happrove⟩

theorem mem_approvalAppended {trace : List StagerEvent} {n : Nat} {e : StructuralEvent}
    (h : Appended trace n e) (approves : Approves e) : n ∈ trace.filterMap approvalAppended := by
  obtain ⟨scope, draft, hmem⟩ := h
  obtain ⟨d, hread, hkind⟩ := approves
  refine List.mem_filterMap.mpr ⟨_, hmem, if_pos ?_⟩
  simp [hread, hkind]

/-- An approval is appended and its command enqueued before the stage is read again. -/
def approvalRun :
    List StagerEvent × Pool EffectOp EffectOp.Reply EffectError EffectStageState EffectWorld :=
  Pool.play (EffectWorld.answer resolvedExternal)
    (StagerCall.body fun _ => digest) EffectWorld.empty
    ([.start (.stage stageRequest stageId "t0"), .perform 0,
      .start (.decide (approval "decide:1") "t1")] ++ [1, 1, 1, 1].map .perform)

/-- The outbox refuses the command of an approval, and the caller retries the same decision. -/
def retriedRun :
    List StagerEvent × Pool EffectOp EffectOp.Reply EffectError EffectStageState EffectWorld :=
  Pool.play outboxDown (StagerCall.body fun _ => digest) EffectWorld.empty
    ([.start (.stage stageRequest stageId "t0"), .perform 0,
      .start (.decide (approval "decide:1") "t1")] ++ [1, 1, 1].map .perform ++
      [.start (.decide (approval "decide:1") "t2"), .perform 2])

def approvalFacts :
    PLift ((approvalRun.1.filterMap approveCall, approvalRun.1.filterMap approvalAppended,
      ((approvalRun.2.tasks 1).bind Program.returned).map fun s => s.status) =
        ([1], [1], some .approved)) :=
  ⟨by decide +kernel⟩

def retriedFacts :
    PLift ((retriedRun.1.filterMap approveCall,
      ((retriedRun.2.tasks 2).bind Program.returned).map fun s => s.status,
      retriedRun.2.shared.outbox) = ([1, 2], some .approved, [])) :=
  ⟨by decide +kernel⟩

end Sample

/-- The undisturbed approval returns an approved stage, and its command is in the outbox. -/
theorem approved_decision_has_command_sample :
    ApprovedHasCommand Sample.approvalRun.1 Sample.approvalRun.2 ∧
      ((Sample.approvalRun.2.tasks 1).bind Program.returned).map (fun s => s.status) =
        some .approved := by
  obtain ⟨hcalls, happrovals, hstatus⟩ := by
    simpa only [Prod.mk.injEq] using Sample.approvalFacts.down
  refine ⟨approved_decision_has_command _ accounted_empty
    (Run.play (Sample.acknowledged_answer _) _) (readsNothingWaiting_of_single 1 ?_ ?_), hstatus⟩
  · intro m hcall
    exact List.mem_singleton.mp (hcalls ▸ Sample.mem_approveCall.mpr hcall)
  · intro m e happended happroves
    exact List.mem_singleton.mp (happrovals ▸ Sample.mem_approvalAppended happended happroves)

/-- Once the outbox has refused an approval's command, the retry returns the approved stage with
nothing in the outbox. -/
theorem retried_approval_has_no_command :
    Run (StagerCall.body fun _ => Sample.digest) EffectWorld.env EffectWorld.empty
        Sample.retriedRun.1 Sample.retriedRun.2 ∧
      ¬ApprovedHasCommand Sample.retriedRun.1 Sample.retriedRun.2 := by
  obtain ⟨hcalls, hstatus, houtbox⟩ := by
    simpa only [Prod.mk.injEq] using Sample.retriedFacts.down
  refine ⟨Run.play Sample.outboxDown_sound _, fun h => ?_⟩
  obtain ⟨r, now, hstart, happrove⟩ : IsApproveCall Sample.retriedRun.1 2 :=
    Sample.mem_approveCall.mp (hcalls ▸ List.mem_cons_of_mem 1 (List.mem_singleton.mpr rfl))
  obtain ⟨state, hreturned, happroved⟩ := Option.map_eq_some_iff.mp hstatus
  obtain ⟨p, htask, hp⟩ := Option.bind_eq_some_iff.mp hreturned
  rw [Program.eq_done_of_returned hp] at htask
  obtain ⟨d, _, _, c, hc, _⟩ := h 2 r now state hstart happrove htask happroved
  rw [houtbox] at hc
  cases hc

end CopilotRuntime.Effects
