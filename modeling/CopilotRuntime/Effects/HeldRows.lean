import CopilotRuntime.Effects.ApprovalAuthority
import CopilotRuntime.Effects.RecordedEvents
import CopilotRuntime.Effects.RowSetReview

/-!
# Held rows and the accepted approval

Applying a row set compares the caller's rows with the postures of a read that
came before, and records the approval later. Neither the stager nor the fold
compares the approved rows with the postures again. The approval names no held
row as long as nobody holds one of its rows in between.

## Implementation notes

A failing append may have recorded its event, so an attempt to hold a row
counts whatever its reply.
-/

namespace CopilotRuntime.Effects

open Foundation StagedWrites EffectStageFold

/-- The event makes the fold accept an approval of rows. -/
structure AcceptsRows (s : EffectStageState) (event : StructuralEvent) (rowKeys : List String) :
    Prop where
  waiting : isOpen s = true
  approved : (applyEvent s event).status = .approved
  named : ∃ d, (applyEvent s event).decision = some d ∧ d.rowKeys = some rowKeys

/-- No accepted approval names a row whose latest posture before it is hold. -/
def NoHeldRowApproved (events : List StructuralEvent) : Prop :=
  ∀ before event after, events = before ++ event :: after →
    ∀ s, fold before = some s → ∀ rowKeys, AcceptsRows s event rowKeys →
      ∀ rowKey ∈ rowKeys, ∀ row ∈ s.rowDecisions, row.rowKey = rowKey → row.decision = .approve

/-- The payload records the hold posture for a row. -/
def RecordsHold (p : Payload) (rowKey : String) : Prop :=
  ∃ items item, Json.lookup p "decisions" = some (.arr items) ∧ Json.obj item ∈ items ∧
    Payload.string item "row_key" = some rowKey ∧ Payload.string item "decision" = some "hold"

section Postures
variable {s s' : EffectStageState} {event : StructuralEvent}

theorem RowDecision.value_of_parse {text : String} {d : RowDecision}
    (h : RowDecision.parse text = some d) : text = d.value := by
  have := List.find?_some h
  exact (beq_iff_eq.mp this).symm

variable {rows : List EffectRowDecisionState} {row : EffectRowDecisionState}

theorem readRowDecision_mem {actor : EffectActorIdentity} {decidedAt ledgerId : String}
    {seen : List EffectRowDecisionState} {item : Json}
    (h : readRowDecision actor decidedAt ledgerId seen item = some rows) (hrow : row ∈ rows) :
    row ∈ seen ∨ ∃ fields, item = .obj fields ∧
      Payload.string fields "row_key" = some row.rowKey ∧
      Payload.string fields "decision" = some row.decision.value := by
  cases item with
  | obj fields =>
      simp only [readRowDecision, Option.bind_eq_bind, Option.bind_eq_some_iff,
        Option.guard_eq_some'] at h
      obtain ⟨rowKey, hkey, decision, ⟨text, htext, hparse⟩, _, _, read, hvalid, hrows⟩ := h
      obtain rfl := (validated_eq_some hvalid).1
      obtain rfl : seen ++ [_] = rows := Option.some.inj hrows
      rcases List.mem_append.mp hrow with hold | hnew
      · exact Or.inl hold
      · obtain rfl := List.mem_singleton.mp hnew
        exact Or.inr ⟨fields, rfl, hkey, by rw [htext, RowDecision.value_of_parse hparse]⟩
  | null | bool | int | str | arr => cases h

theorem foldlM_readRowDecision_mem {actor : EffectActorIdentity} {decidedAt ledgerId : String}
    {items : List Json} {seen : List EffectRowDecisionState}
    (h : items.foldlM (readRowDecision actor decidedAt ledgerId) seen = some rows)
    (hrow : row ∈ rows) :
    row ∈ seen ∨ ∃ fields, Json.obj fields ∈ items ∧
      Payload.string fields "row_key" = some row.rowKey ∧
      Payload.string fields "decision" = some row.decision.value := by
  induction items generalizing seen with
  | nil =>
      obtain rfl : seen = rows := Option.some.inj h
      exact Or.inl hrow
  | cons item rest ih =>
      rw [List.foldlM_cons] at h
      obtain ⟨next, hnext, hrest⟩ := Option.bind_eq_some_iff.mp h
      rcases ih hrest with hmem | ⟨fields, hitem, hread⟩
      · rcases readRowDecision_mem hnext hmem with hold | ⟨fields, rfl, hread⟩
        · exact Or.inl hold
        · exact Or.inr ⟨fields, List.mem_cons_self, hread⟩
      · exact Or.inr ⟨fields, List.mem_cons_of_mem item hitem, hread⟩

/-- A held row that an event records is held by that event's payload. -/
theorem recordsHold_of_readRowDecisions (h : readRowDecisions s event = some rows)
    (hrow : row ∈ rows) (hheld : row.decision = .hold) : RecordsHold event.payload row.rowKey := by
  simp only [readRowDecisions, Option.bind_eq_bind, Option.bind_eq_some_iff,
    Option.guard_eq_some'] at h
  obtain ⟨_, _, _, _, _, _, _, _, _, _, actor, _, decidedAt, _, hrows⟩ := h
  cases hitems : Json.lookup event.payload "decisions" with
  | none => simp [hitems] at hrows
  | some value =>
      cases value with
      | arr items =>
          simp only [hitems, Option.bind_eq_some_iff, Option.guard_eq_some'] at hrows
          obtain ⟨_, _, hrows⟩ := hrows
          rcases foldlM_readRowDecision_mem hrows hrow with hnil | ⟨fields, hmem, hkey, hdecision⟩
          · cases hnil
          · rw [hheld] at hdecision
            exact ⟨items, fields, hitems, hmem, hkey, hdecision⟩
      | null | bool | int | str | obj => simp [hitems] at hrows

/-- A row is held after an event only if it was before, or the event holds it. -/
theorem held_applyEvent (hrow : row ∈ (applyEvent s event).rowDecisions)
    (hheld : row.decision = .hold) :
    row ∈ s.rowDecisions ∨
      event.eventType = eventRowDecisions ∧ RecordsHold event.payload row.rowKey := by
  have hstep := eventStep_applyEvent s event
  generalize hnext : applyEvent s event = next at hstep hrow
  cases hstep with
  | ignored | bound | decided => exact Or.inl hrow
  | revised => cases hrow
  | rowsDecided kind _ _ _ read =>
      rcases mem_mergeRowDecisions hrow with hold | hupdate
      · exact Or.inl hold
      · exact Or.inr ⟨kind, recordsHold_of_readRowDecisions read hupdate hheld⟩

/-- Over several events a held row was held before, or one of the events holds it. -/
theorem held_foldl {events : List StructuralEvent}
    (hfold : events.foldl foldStep (some s) = some s') (hrow : row ∈ s'.rowDecisions)
    (hheld : row.decision = .hold) :
    row ∈ s.rowDecisions ∨
      ∃ e ∈ events, e.eventType = eventRowDecisions ∧ RecordsHold e.payload row.rowKey := by
  induction events generalizing s with
  | nil =>
      obtain rfl : s = s' := Option.some.inj hfold
      exact Or.inl hrow
  | cons event rest ih =>
      rcases ih (s := applyEvent s event) hfold with hmem | ⟨e, he, hrecords⟩
      · rcases held_applyEvent hmem hheld with hold | hrecords
        · exact Or.inl hold
        · exact Or.inr ⟨event, List.mem_cons_self, hrecords⟩
      · exact Or.inr ⟨e, List.mem_cons_of_mem event he, hrecords⟩

/-- Only a decision event is accepted, and it names the rows the payload names. -/
theorem AcceptsRows.decision {rowKeys : List String} (h : AcceptsRows s event rowKeys) :
    event.eventType = eventDecision ∧ Payload.string event.payload "stage_id" = some s.stageId ∧
      Payload.optionalRowKeys event.payload = some (some rowKeys) := by
  obtain ⟨hwaiting, happroved, d, hdecision, hkeys⟩ := h
  have hstep := eventStep_applyEvent s event
  generalize hnext : applyEvent s event = next at hstep happroved hdecision
  have hnot : s.status ≠ .approved := by
    intro hstatus
    simp [isOpen, hstatus] at hwaiting
  cases hstep with
  | ignored | bound | rowsDecided => exact (hnot happroved).elim
  | revised =>
      dsimp only at happroved
      split at happroved <;> cases happroved
  | decided kind stage _ _ read _ =>
      obtain rfl := Option.some.inj hdecision
      refine ⟨kind, stage, ?_⟩
      simp only [readDecision, Option.bind_eq_bind, Option.bind_eq_some_iff] at read
      obtain ⟨_, _, _, _, _, _, _, _, _, _, _, _, _, _, rowKeys', hread, hvalid⟩ := read
      obtain rfl := (validated_eq_some hvalid).1
      rw [hread]
      exact congrArg some hkeys

end Postures

/-- One more event adds its own obligation. -/
theorem noHeldRowApproved_snoc {events : List StructuralEvent} {event : StructuralEvent}
    (h : NoHeldRowApproved events)
    (hlast : ∀ s, fold events = some s → ∀ rowKeys, AcceptsRows s event rowKeys →
      ∀ rowKey ∈ rowKeys, ∀ row ∈ s.rowDecisions, row.rowKey = rowKey → row.decision = .approve) :
    NoHeldRowApproved (events ++ [event]) := by
  intro before e after hsplit
  rcases List.eq_nil_or_concat after with rfl | ⟨after', last, rfl⟩
  · obtain ⟨rfl, he⟩ := List.append_inj' hsplit rfl
    obtain rfl : event = e := by simpa using he
    exact hlast
  · rw [List.concat_eq_append, ← List.cons_append, ← List.append_assoc] at hsplit
    exact h before e after' (List.append_inj' hsplit rfl).1

/-- The calls of the review service that append to the ledger. -/
inductive ReviewCall
  | recordRowDecisions (a : StageAddress) (pins : ReviewedSnapshot)
      (decisions : List (String × RowDecision)) (now : String)
  | apply (a : StageAddress) (pins : ReviewedSnapshot) (rowKeys : List String)
      (basisSequenceNo : Nat) (now : String)

def ReviewCall.body (sha256 : String → String) (admission : RolloutAdmission)
    (material : RowSetMaterial) : ReviewCall → EffectProgram RowSetEffectReview
  | recordRowDecisions a pins decisions now =>
      RowSetReview.recordRowDecisions sha256 material a pins decisions now
  | apply a pins rowKeys basisSequenceNo now =>
      RowSetReview.apply sha256 admission material a pins rowKeys basisSequenceNo now

abbrev ReviewEvent := Event EffectOp EffectOp.Reply ReviewCall

/-- An attempt to append an event like the given one. -/
def Attempts (e : StructuralEvent) (event : ReviewEvent) : Prop :=
  ∃ m scope draft reply, event = .performed m (.appendStageEvent scope draft) reply ∧
    scope.runId = e.runId ∧ draft.eventType = e.eventType ∧ draft.payload = e.payload

/-- An attempt to hold a row of a stage. -/
def Holds (runId : String) (stageId : Option String) (rowKey : String) (event : ReviewEvent) :
    Prop :=
  ∃ m scope draft reply, event = .performed m (.appendStageEvent scope draft) reply ∧
    scope.runId = runId ∧ Payload.string draft.payload "stage_id" = stageId ∧
    draft.eventType = eventRowDecisions ∧ RecordsHold draft.payload rowKey

/-- A decision is appended before anyone holds one of its rows that was not held when the
call that appends it first listed the stage. -/
def Unraced (earlier : List ReviewEvent) : ReviewEvent → Prop
  | .performed n (.appendStageEvent scope draft) _ =>
      draft.eventType = eventDecision →
        ∀ rowKeys, Payload.optionalRowKeys draft.payload = some (some rowKeys) →
          ∀ before scope' stageId reply since,
            earlier = before ++ .performed n (.listStageEvents scope' stageId) reply :: since →
              ∀ rowKey ∈ rowKeys, ∀ event ∈ since,
                ¬ Holds scope.runId (Payload.string draft.payload "stage_id") rowKey event
  | _ => True

/-- What every reachable trace and world of the review service satisfy. -/
structure ReviewInvariant (trace : List ReviewEvent) (w : EffectWorld) : Prop where
  ordered : w.ledger.Ordered
  since : ∀ before n scope stageId events after,
    trace = before ++ .performed n (.listStageEvents scope stageId) (.ok events) :: after →
      ∃ rest, w.ledger.stageEvents scope.runId stageId = events ++ rest ∧
        ∀ e ∈ rest, ∃ event ∈ after, Attempts e event
  clean : EachAfter Unraced trace →
    ∀ runId stageId, NoHeldRowApproved (w.ledger.stageEvents runId stageId)

section Invariant
variable {trace : List ReviewEvent} {w w' : EffectWorld}

/-- A step that leaves the ledger alone keeps the invariant, if its own list is complete. -/
theorem ReviewInvariant.quiet (h : ReviewInvariant trace w) (hledger : w'.ledger = w.ledger)
    {event : ReviewEvent}
    (hlist : ∀ n scope stageId events,
      event = .performed n (.listStageEvents scope stageId) (.ok events) →
        w.ledger.stageEvents scope.runId stageId = events) :
    ReviewInvariant (trace ++ [event]) w' where
  ordered := hledger ▸ h.ordered
  since before n scope stageId events after hsplit := by
    rw [hledger]
    rcases List.eq_nil_or_concat after with rfl | ⟨after', last, rfl⟩
    · obtain ⟨-, he⟩ := List.append_inj' hsplit rfl
      refine ⟨[], ?_, by simp⟩
      rw [List.append_nil]
      exact hlist n scope stageId events (List.singleton_inj.mp he)
    · rw [List.concat_eq_append, ← List.cons_append, ← List.append_assoc] at hsplit
      obtain ⟨rest, hrest, hattempts⟩ :=
        h.since before n scope stageId events after' (List.append_inj' hsplit rfl).1
      refine ⟨rest, hrest, fun e he => ?_⟩
      obtain ⟨event', hmem, hattempt⟩ := hattempts e he
      exact ⟨event', by simp [hmem], hattempt⟩
  clean hunraced := by
    rw [hledger]
    exact h.clean (eachAfter_snoc.mp hunraced).1

theorem ReviewInvariant.read (h : ReviewInvariant trace w) {n : Nat} {op : EffectOp}
    {reply : op.Reply} (hop : ReadingOp op) (env : EffectWorld.env op w reply w') :
    ReviewInvariant (trace ++ [Event.performed n op reply]) w' := by
  cases op with
  | getRun orgId runId => exact h.quiet (by rw [env.2]) fun _ _ _ _ he => by cases he
  | listStageEvents scope stageId =>
      obtain ⟨hread, rfl⟩ := env
      refine h.quiet rfl fun m scope' stageId' events he => ?_
      cases he
      rcases hread with hread | ⟨e, hread⟩
      · exact (Except.ok.inj hread).symm
      · cases hread
  | _ => exact hop.elim

/-- The stage events after an append, seen from one stage. -/
theorem stageEvents_push_cases (l : StageLedger) (draft : StageEventDraft)
    (event : StructuralEvent) (runId stageId : String) :
    (l.push draft event).stageEvents runId stageId = l.stageEvents runId stageId ∨
      (event.runId = runId ∧ Payload.string event.payload "stage_id" = some stageId ∧
        (l.push draft event).stageEvents runId stageId = l.stageEvents runId stageId ++ [event]) := by
  unfold StageLedger.stageEvents StageLedger.push
  rw [List.filter_append]
  by_cases hmine : event.runId = runId ∧ Payload.string event.payload "stage_id" = some stageId
  · exact Or.inr ⟨hmine.1, hmine.2, by simp [hmine]⟩
  · exact Or.inl (by simp [hmine])

/-- An append keeps the invariant if its event, when it is unraced, approves no held row. -/
theorem ReviewInvariant.append (h : ReviewInvariant trace w) {n : Nat} {scope : EffectStageScope}
    {draft : StageEventDraft} {reply : Except EffectError StructuralEvent} {l : StageLedger}
    (happend : StageLedger.Append w.ledger scope draft reply l)
    (hclean : EachAfter Unraced trace →
      Unraced trace (.performed n (.appendStageEvent scope draft) reply) →
      ∀ e : StructuralEvent, e.runId = scope.runId → e.eventType = draft.eventType →
        e.payload = draft.payload → ∀ stageId s,
          fold (w.ledger.stageEvents scope.runId stageId) = some s →
          ∀ rowKeys, AcceptsRows s e rowKeys → ∀ rowKey ∈ rowKeys, ∀ row ∈ s.rowDecisions,
            row.rowKey = rowKey → row.decision = .approve) :
    ReviewInvariant (trace ++ [Event.performed n (EffectOp.appendStageEvent scope draft) reply])
      { w with ledger := l } := by
  rcases happend.events_cases with rfl | ⟨e, hrun, hnext, htype, hpayload, rfl⟩
  · exact h.quiet rfl fun _ _ _ _ he => by cases he
  · have hattempt : Attempts e
        (.performed n (.appendStageEvent scope draft) reply : ReviewEvent) :=
      ⟨n, scope, draft, reply, rfl, hrun.symm, htype.symm, hpayload.symm⟩
    refine ⟨h.ordered.push draft hnext, ?_, ?_⟩
    · intro before m scope' stageId events after hsplit
      rcases List.eq_nil_or_concat after with rfl | ⟨after', last, rfl⟩
      · have he := List.singleton_inj.mp (List.append_inj' hsplit rfl).2
        cases he
      · rw [List.concat_eq_append, ← List.cons_append, ← List.append_assoc] at hsplit
        obtain ⟨hearlier, hlast⟩ := List.append_inj' hsplit rfl
        obtain rfl := List.singleton_inj.mp hlast
        obtain ⟨rest, hrest, hattempts⟩ := h.since before m scope' stageId events after' hearlier
        rcases stageEvents_push_cases w.ledger draft e scope'.runId stageId with hsame | ⟨_, _, hmore⟩
        · refine ⟨rest, hsame.trans hrest, fun x hx => ?_⟩
          obtain ⟨event', hmem, hx⟩ := hattempts x hx
          exact ⟨event', by simp [hmem], hx⟩
        · refine ⟨rest ++ [e], by rw [hmore, hrest, List.append_assoc], fun x hx => ?_⟩
          rcases List.mem_append.mp hx with hold | hnew
          · obtain ⟨event', hmem, hx⟩ := hattempts x hold
            exact ⟨event', by simp [hmem], hx⟩
          · obtain rfl := List.mem_singleton.mp hnew
            exact ⟨_, by simp, hattempt⟩
    · intro hunraced runId stageId
      obtain ⟨hbefore, hnow⟩ := eachAfter_snoc.mp hunraced
      rcases stageEvents_push_cases w.ledger draft e runId stageId with hsame | ⟨hmine, _, hmore⟩
      · exact hsame ▸ h.clean hbefore runId stageId
      · rw [hmore]
        refine noHeldRowApproved_snoc (h.clean hbefore runId stageId) ?_
        rw [← hmine, hrun]
        exact hclean hbefore hnow e hrun htype hpayload stageId

end Invariant

/-- A list of the stage read by the task shows that none of the rows is held. -/
structure ShowsFree (n : Nat) (events : List ReviewEvent) (runId stageId : String)
    (rowKeys : List String) : Prop where
  listed : ∃ scope history s, .performed n (.listStageEvents scope stageId) (.ok history) ∈ events ∧
    scope.runId = runId ∧ fold history = some s ∧
    ∀ rowKey ∈ rowKeys, ∀ row ∈ s.rowDecisions, row.rowKey = rowKey → row.decision = .approve

theorem ShowsFree.mono {n : Nat} {events more : List ReviewEvent} {runId stageId : String}
    {rowKeys : List String} (h : ShowsFree n events runId stageId rowKeys)
    (hsub : ∀ event ∈ events, event ∈ more) : ShowsFree n more runId stageId rowKeys := by
  obtain ⟨scope, history, s, hread, hrest⟩ := h.listed
  exact ⟨scope, history, s, hsub _ hread, hrest⟩

/-- Reading, enqueueing, and appending; a decision only after a read that backs it. -/
def Backed (n : Nat) (own : List ReviewEvent) : EffectOp → Prop
  | .getRun _ _ | .listStageEvents _ _ | .enqueueAfterDecision _ => True
  | .appendStageEvent scope draft =>
      draft.eventType = eventDecision →
        ∃ stageId, Payload.string draft.payload "stage_id" = some stageId ∧
          ∀ rowKeys, Payload.optionalRowKeys draft.payload = some (some rowKeys) →
            ShowsFree n own scope.runId stageId rowKeys
  | _ => False

section Safety
variable {trace : List ReviewEvent} {w w' : EffectWorld} {n : Nat} {own : List ReviewEvent}

variable {rowKeys : List String}

/-- What was read free is still free if nobody held it since. -/
theorem ReviewInvariant.free (h : ReviewInvariant trace w) {runId stageId : String}
    (hfree : ShowsFree n trace runId stageId rowKeys)
    (hunraced : ∀ before scope' stageId' reply since,
      trace = before ++ .performed n (.listStageEvents scope' stageId') reply :: since →
        ∀ rowKey ∈ rowKeys, ∀ event ∈ since, ¬ Holds runId (some stageId) rowKey event)
    {s : EffectStageState} (hfold : fold (w.ledger.stageEvents runId stageId) = some s) :
    ∀ rowKey ∈ rowKeys, ∀ row ∈ s.rowDecisions, row.rowKey = rowKey → row.decision = .approve := by
  intro rowKey hkey row hrow hname
  by_contra hnot
  have hheld : row.decision = .hold := by
    cases hdecision : row.decision with
    | approve => exact (hnot hdecision).elim
    | hold => rfl
  obtain ⟨scope, history, s₀, hread, rfl, hfirst, happroved⟩ := hfree.listed
  obtain ⟨before, since, htrace⟩ := List.append_of_mem hread
  obtain ⟨rest, hrest, hattempts⟩ := h.since before n scope stageId history since htrace
  have hincreasing := h.ordered.stageEvents_increasing scope.runId stageId
  have hrun : rest.foldl foldStep (some s₀) = some s := by
    rw [hrest] at hfold hincreasing
    rwa [fold_eq_foldl hincreasing, List.foldl_append,
      ← fold_eq_foldl (hincreasing.sublist (List.sublist_append_left _ _)), hfirst] at hfold
  rcases held_foldl hrun hrow hheld with hold | ⟨e, he, hkind, hrecords⟩
  · exact hnot (happroved rowKey hkey row hold hname)
  · obtain ⟨event, hevent, m, scope', draft, reply, rfl, hscope, htype, hpayload⟩ :=
      hattempts e he
    have hmem := StageLedger.mem_stageEvents.mp (hrest ▸ List.mem_append_right history he)
    refine hunraced before scope stageId _ since htrace rowKey hkey _ hevent
      ⟨m, scope', draft, reply, rfl, hscope.trans hmem.2.1, ?_, htype.trans hkind, ?_⟩
    · rw [hpayload]
      exact hmem.2.2
    · rw [hpayload, ← hname]
      exact hrecords

theorem ReviewInvariant.backed (h : ReviewInvariant trace w) {op : EffectOp} {reply : op.Reply}
    (hop : Backed n own op) (hsub : ∀ event ∈ own, event ∈ trace)
    (env : EffectWorld.env op w reply w') :
    ReviewInvariant (trace ++ [Event.performed n op reply]) w' := by
  cases op with
  | getRun orgId runId => exact h.read (by trivial) env
  | listStageEvents scope stageId => exact h.read (by trivial) env
  | enqueueAfterDecision command =>
      refine h.quiet ?_ fun _ _ _ _ he => by cases he
      rcases env with ⟨_, rfl⟩ | ⟨_, _, rfl | rfl⟩ <;> rfl
  | appendStageEvent scope draft =>
      obtain ⟨l, happend, rfl⟩ := env
      apply h.append happend
      intro _ hunraced e hrun htype hpayload stageId s hfold rowKeys haccepts
      obtain ⟨hkind, hstage, hkeys⟩ := haccepts.decision
      rw [htype] at hkind
      rw [hpayload] at hstage hkeys
      obtain ⟨stageId', hstage', hbacked⟩ := hop hkind
      have hfree := hbacked rowKeys hkeys
      have hsame : s.stageId = stageId :=
        stageId_fold (fun _ he => (StageLedger.mem_stageEvents.mp he).2.2) hfold
      obtain rfl : stageId' = stageId := by
        rw [hstage', hsame] at hstage
        exact Option.some.inj hstage
      apply h.free (hfree.mono hsub) _ hfold
      intro before scope' listed reply' since htrace rowKey hkey event hevent
      rw [← hstage']
      exact hunraced hkind rowKeys hkeys before scope' listed reply' since htrace rowKey hkey
        event hevent
  | _ => exact hop.elim

abbrev KeepsReview {α : Type} (n : Nat)
    (post : Except EffectError α → List ReviewEvent → Prop) (p : EffectProgram α)
    (own : List ReviewEvent) : Prop :=
  Safe EffectWorld.env ReviewInvariant n post p own

theorem keepsReview_backed {α : Type} {p : EffectProgram α} (h : p.OnlyAwaits (Backed n own)) :
    KeepsReview n (fun _ _ => True) p own :=
  (Safe.of_onlyAwaits (fun _ _ _ _ _ hop hsub inv env => inv.backed hop hsub env) h).mono
    fun _ _ _ => trivial

theorem backed_of_readingOp {op : EffectOp} (h : ReadingOp op) : Backed n own op := by
  cases op with
  | getRun orgId runId => trivial
  | listStageEvents scope stageId => trivial
  | _ => exact h.elim

/-- The task has listed the stage's history, and the state is its fold. -/
def Listed (n : Nat) (events : List ReviewEvent) (runId stageId : String)
    (state : EffectStageState) : Prop :=
  ∃ scope history, .performed n (.listStageEvents scope stageId) (.ok history) ∈ events ∧
    scope.runId = runId ∧ fold history = some state

/-- The fact holds of a returned value; nothing is said of an error. -/
def Yields {α : Type} (P : α → List ReviewEvent → Prop) (result : Except EffectError α)
    (events : List ReviewEvent) : Prop :=
  ∀ a, result = .ok a → P a events

theorem keepsReview_raised {α : Type} {P : α → List ReviewEvent → Prop} (e : EffectError) :
    KeepsReview n (Yields P) (.raised e) own := by
  refine .raised fun a h => ?_
  cases h

theorem keepsReview_done {α : Type} {P : α → List ReviewEvent → Prop} {a : α} (h : P a own) :
    KeepsReview n (Yields P) (.done a) own := by
  refine .done fun a' heq => ?_
  rwa [← Except.ok.inj heq]

theorem keepsReview_bind {α β : Type} {P : α → List ReviewEvent → Prop}
    {Q : β → List ReviewEvent → Prop} {p : EffectProgram α} {f : α → EffectProgram β}
    (h : KeepsReview n (Yields P) p own)
    (hf : ∀ a events, P a events → KeepsReview n (Yields Q) (f a) events) :
    KeepsReview n (Yields Q) (p >>= f) own := by
  refine Safe.bind h (fun a events hyields => hf a events (hyields a rfl)) ?_
  intro e events _ a heq
  cases heq

/-- After a list of the stage the task goes on with what was listed. -/
theorem keepsReview_list {α : Type} {Q : α → List ReviewEvent → Prop} {scope : EffectStageScope}
    {stageId : String} {g : List StructuralEvent → EffectProgram α}
    (hg : ∀ history, KeepsReview n (Yields Q) (g history)
      (own ++ [Event.performed n (EffectOp.listStageEvents scope stageId) (.ok history)])) :
    KeepsReview n (Yields Q)
      (perform (.listStageEvents scope stageId) >>= fun reply => unwrap reply >>= g) own := by
  rw [perform_bind]
  refine .of_await fun trace w reply w' inv _ env => ⟨inv.read (by trivial) env, ?_⟩
  cases reply with
  | error e => exact keepsReview_raised e
  | ok history => exact hg history

/-- After a look-up the task goes on with what was found, which has the looked-up ids. -/
theorem keepsReview_getRun {α : Type} {Q : α → List ReviewEvent → Prop} {orgId runId : String}
    {g : Option RunRecord → EffectProgram α}
    (hg : ∀ found, (∀ run, found = some run → run.runId = runId) →
      KeepsReview n (Yields Q) (g found)
        (own ++ [Event.performed n (EffectOp.getRun orgId runId) (.ok found)])) :
    KeepsReview n (Yields Q)
      (perform (.getRun orgId runId) >>= fun reply => unwrap reply >>= g) own := by
  rw [perform_bind]
  refine .of_await fun trace w reply w' inv _ env => ⟨inv.read (by trivial) env, ?_⟩
  cases reply with
  | error e => exact keepsReview_raised e
  | ok found => exact hg found fun run hfound => (env.1 run (congrArg _ hfound)).2

theorem keepsReview_getState (scope : EffectStageScope) (stageId : String) :
    KeepsReview n (Yields fun state events => Listed n events scope.runId stageId state)
      (getState scope stageId) own := by
  unfold getState readState
  split
  · refine keepsReview_list fun history => ?_
    cases hfolded : foldedState scope history with
    | error e => exact keepsReview_raised _
    | ok state =>
        apply keepsReview_done
        refine ⟨scope, history, ?_, rfl, fold_of_foldedState hfolded⟩
        exact List.mem_append_right _ (List.mem_singleton.mpr rfl)
  · exact keepsReview_raised _

theorem keepsReview_ownedStage (allowed : List EffectExecutorKind) (a : StageAddress) :
    KeepsReview n (Yields fun owned events => owned.scope.runId = a.runId ∧
      Listed n events a.runId a.stageId owned.state) (ownedStage allowed a) own := by
  unfold ownedStage
  split
  · exact keepsReview_raised _
  · refine keepsReview_getRun fun found hfound => ?_
    cases found with
    | none => exact keepsReview_raised _
    | some run =>
        have hrun : run.runId = a.runId := hfound run rfl
        dsimp only
        split
        · exact keepsReview_raised _
        · split
          · exact keepsReview_raised _
          · refine keepsReview_bind (keepsReview_getState _ _) fun state events hlisted => ?_
            split
            · exact keepsReview_raised _
            · exact keepsReview_done ⟨hrun, hrun ▸ hlisted⟩

/-- The rows a review offers to apply are not held in its state. -/
theorem userDecision_of_apply {state : EffectStageState} {proposal : RowSetEffectProposal}
    {events : List StructuralEvent} {found : RowSetEffectReview} {action : RowSetReviewAction}
    (h : RowSetReview.projectReview state proposal events = some found)
    (haction : found.action = some action) (hkind : action.kind = .apply) {rowKey : String}
    (hkey : rowKey ∈ action.rowKeys) : RowSetReview.userDecision state rowKey ≠ some .hold := by
  simp only [RowSetReview.projectReview, Option.bind_eq_bind, Option.bind_eq_some_iff] at h
  obtain ⟨last, _, scan, _, hfound⟩ := h
  obtain rfl := Option.some.inj hfound
  unfold RowSetReview.reviewAction at haction
  split at haction
  · split at haction
    · obtain rfl := Option.some.inj haction
      obtain ⟨row, hrow, rfl⟩ := List.mem_map.mp hkey
      obtain ⟨hmem, happroved⟩ := List.mem_filter.mp hrow
      obtain ⟨staged, _, rfl⟩ := List.mem_map.mp hmem
      have hposture : (RowSetReview.posture state proposal staged.rowKey).1 = .approve :=
        (of_decide_eq_true happroved).1
      intro hheld
      have hname : (RowSetReview.reviewRow state proposal scan staged).rowKey = staged.rowKey := rfl
      rw [hname] at hheld
      rw [RowSetReview.posture, hheld] at hposture
      cases hposture
    · cases haction
  · split at haction
    · obtain rfl := Option.some.inj haction
      cases hkind
    · cases haction

/-- With one entry for each row, the recorded posture is the last one. -/
theorem approve_of_userDecision {history : List StructuralEvent} {state : EffectStageState}
    (hfold : fold history = some state) {row : EffectRowDecisionState}
    (hrow : row ∈ state.rowDecisions)
    (hnot : RowSetReview.userDecision state row.rowKey ≠ some .hold) : row.decision = .approve := by
  have hnodup : (state.rowDecisions.map fun r => r.rowKey).Nodup :=
    (sound_and_valid hfold).1.rowKeys.imp fun hlt => ne_of_lt hlt
  cases hfind : state.rowDecisions.reverse.find? (fun r => r.rowKey = row.rowKey) with
  | none =>
      have := List.find?_eq_none.mp hfind row (List.mem_reverse.mpr hrow)
      simp at this
  | some last =>
      have hlast : last ∈ state.rowDecisions :=
        List.mem_reverse.mp (List.mem_of_find?_eq_some hfind)
      have hname : last.rowKey = row.rowKey := by simpa using List.find?_some hfind
      obtain rfl := List.inj_on_of_nodup_map hnodup hlast hrow hname
      rw [RowSetReview.userDecision, hfind] at hnot
      cases hdecision : last.decision with
      | approve => rfl
      | hold => exact (hnot (congrArg some hdecision)).elim

variable (material : RowSetMaterial)

theorem keepsReview_stageHistory (allowed : List EffectExecutorKind) (a : StageAddress) :
    KeepsReview n (Yields fun found events => Listed n events a.runId a.stageId found.1)
      (stageHistory allowed a) own := by
  refine keepsReview_bind (keepsReview_ownedStage allowed a) fun owned events howned => ?_
  refine keepsReview_list fun second => ?_
  obtain ⟨-, scope, history, hread, hrest⟩ := howned
  exact keepsReview_done ⟨scope, history, List.mem_append_left _ hread, hrest⟩

/-- A review that offers to apply rows has listed the stage with these rows free. -/
theorem keepsReview_review (a : StageAddress) :
    KeepsReview n (Yields fun found events => ∀ action, found.action = some action →
        action.kind = .apply → ShowsFree n events a.runId a.stageId action.rowKeys)
      (RowSetReview.review material a) own := by
  unfold RowSetReview.review RowSetReview.stateAndEvents
  refine keepsReview_bind (P := fun found events => Listed n events a.runId a.stageId found.1)
    ?_ fun found events hlisted => ?_
  · refine keepsReview_bind (keepsReview_stageHistory _ a) fun found events hlisted => ?_
    dsimp only
    split
    · exact keepsReview_raised _
    · exact keepsReview_done hlisted
  · dsimp only
    cases hproject : RowSetReview.project material a found.1 found.2 with
    | none => exact keepsReview_raised _
    | some shown =>
        apply keepsReview_done
        intro action haction hkind
        obtain ⟨scope, history, hread, hrun, hfold⟩ := hlisted
        refine ⟨scope, history, found.1, hread, hrun, hfold, fun rowKey hkey row hrow hname => ?_⟩
        simp only [RowSetReview.project, Option.bind_eq_bind, Option.bind_eq_some_iff] at hproject
        obtain ⟨_, _, proposal, _, hshown⟩ := hproject
        apply approve_of_userDecision hfold hrow
        rw [hname]
        exact userDecision_of_apply hshown haction hkind hkey

theorem onlyAwaits_review (a : StageAddress) :
    (RowSetReview.review material a).OnlyAwaits (Backed n own) := by
  refine Program.OnlyAwaits.bind ?_ fun found => ?_
  · refine ((onlyAwaits_stageHistory _ a).mono fun _ => backed_of_readingOp).bind fun found => ?_
    dsimp only
    split
    · exact .raised _
    · exact .done _
  · dsimp only
    split
    · exact .raised _
    · exact .done _

variable (sha256 : String → String) (admission : RolloutAdmission)

/-- The approval a call records names the rows of the call. -/
theorem rowKeys_of_decisionDraft {r : DecideRequest} {now : String} {named : List String}
    (hkeys : r.rowKeys = some rowKeys)
    (h : Payload.optionalRowKeys (decisionDraft sha256 r now).payload = some (some named)) :
    named = rowKeys := by
  have hlookup : Json.lookup (decisionDraft sha256 r now).payload "row_keys"
      = some (.arr (rowKeys.map Json.str)) := by
    simp [decisionDraft, hkeys, Json.lookup, Json.strings]
  rw [Payload.optionalRowKeys, hlookup] at h
  dsimp only at h
  rw [Payload.texts_map_str] at h
  dsimp only at h
  split at h
  · exact (Option.some.inj (Option.some.inj h)).symm
  · cases h

theorem keepsReview_recordDecision {a : StageAddress} {pins : ReviewedSnapshot}
    {decision : EffectDecisionKind} {keyNamespace now : String}
    (allowed : List EffectExecutorKind) (hfree : ShowsFree n own a.runId a.stageId rowKeys) :
    KeepsReview n (Yields fun _ _ => True)
      (recordDecision sha256 admission allowed a pins decision (some rowKeys) keyNamespace now)
      own := by
  unfold recordDecision
  refine (keepsReview_ownedStage allowed a).and_extends.bind (fun owned events hpost => ?_) ?_
  · obtain ⟨howned, hpre⟩ := hpost
    obtain ⟨hrun, -⟩ := howned owned rfl
    cases admission owned.run owned.state.executor with
    | none => exact keepsReview_raised _
    | some governed =>
        dsimp only
        refine (keepsReview_backed (onlyAwaits_decide_of sha256 (by trivial) ?_
          fun _ => (by trivial))).mono fun _ _ _ _ _ => trivial
        intro _
        refine ⟨a.stageId, rfl, fun named hnamed => ?_⟩
        obtain rfl := rowKeys_of_decisionDraft sha256 rfl hnamed
        have hscope : (decisionRequest sha256 owned a pins decision (some named) keyNamespace
            governed).scope.runId = a.runId := hrun
        rw [hscope]
        exact hfree.mono hpre.subset
  · intro e events _ a heq
    cases heq

theorem keepsReview_apply (a : StageAddress) (pins : ReviewedSnapshot) (rowKeys : List String)
    (basisSequenceNo : Nat) (now : String) :
    KeepsReview n (Yields fun _ _ => True)
      (RowSetReview.apply sha256 admission material a pins rowKeys basisSequenceNo now) own := by
  unfold RowSetReview.apply
  refine keepsReview_bind (keepsReview_review material a) fun current events hshown => ?_
  split
  · exact keepsReview_raised _
  · next hassert =>
      rw [Bool.not_eq_true, Bool.not_eq_false'] at hassert
      simp only [RowSetReview.assertAction, Bool.and_eq_true, Option.any_eq_true, beq_iff_eq]
        at hassert
      obtain ⟨-, action, haction, ⟨⟨hkind, hsame⟩, -⟩, -⟩ := hassert
      have hfree : ShowsFree n events a.runId a.stageId rowKeys := by
        obtain ⟨scope, history, s, hread, hrun, hfold, happroved⟩ :=
          (hshown action haction hkind).listed
        refine ⟨scope, history, s, hread, hrun, hfold, fun rowKey hkey => happroved rowKey ?_⟩
        simp only [sameElements, Bool.and_eq_true, List.all_eq_true, List.contains_iff_mem]
          at hsame
        exact hsame.2 rowKey hkey
      refine keepsReview_bind (keepsReview_recordDecision sha256 admission _ hfree) ?_
      intro _ later _
      exact (keepsReview_backed (onlyAwaits_review material a)).mono fun _ _ _ _ _ => trivial

theorem onlyAwaits_recordPostures (a : StageAddress) (pins : ReviewedSnapshot)
    (decisions : List (String × RowDecision)) (now : String) :
    (RowSetReview.recordRowDecisions sha256 material a pins decisions now).OnlyAwaits
      (Backed n own) := by
  refine (onlyAwaits_review material a).bind fun current => ?_
  split
  · exact .raised _
  · refine Program.OnlyAwaits.bind ?_ fun _ => onlyAwaits_review material a
    refine ((onlyAwaits_ownedStage _ a).mono fun _ => backed_of_readingOp).bind fun owned => ?_
    have hother : eventRowDecisions ≠ eventDecision := by decide
    exact onlyAwaits_recordRowDecisions_of sha256 (by trivial) fun hkind => (hother hkind).elim

theorem reviewVerified {w₀ : EffectWorld} (ordered : w₀.ledger.Ordered)
    (clean : ∀ runId stageId, NoHeldRowApproved (w₀.ledger.stageEvents runId stageId)) :
    Verified (ReviewCall.body sha256 admission material) EffectWorld.env ReviewInvariant
      (fun _ _ _ => True) w₀ where
  init := by
    refine ⟨ordered, fun before _ _ _ _ _ h => ?_, fun _ => clean⟩
    cases before <;> cases h
  started _ _ _ _ inv _ := inv.quiet rfl fun _ _ _ _ he => by cases he
  body_safe n call := by
    cases call with
    | recordRowDecisions a pins decisions now =>
        exact keepsReview_backed (onlyAwaits_recordPostures material sha256 a pins decisions now)
    | apply a pins rowKeys basisSequenceNo now =>
        exact (keepsReview_apply material sha256 admission a pins rowKeys basisSequenceNo now).mono
          fun _ _ _ => trivial
  stopped _ _ _ inv := inv.quiet rfl fun _ _ _ _ he => by cases he

end Safety

/-- A history of at most one event has no accepted approval. -/
theorem noHeldRowApproved_of_length {events : List StructuralEvent} (h : events.length ≤ 1) :
    NoHeldRowApproved events := by
  rintro before event after rfl s hfold
  have hnil : before = [] := by
    rw [List.length_append, List.length_cons] at h
    exact List.length_eq_zero_iff.mp (by omega)
  subst hnil
  cases hfold

/-- Without an attempt to hold a row nothing is raced. -/
theorem unraced_of_no_holds {trace : List ReviewEvent}
    (h : ∀ event ∈ trace, ∀ runId stageId rowKey, ¬ Holds runId stageId rowKey event) :
    EachAfter Unraced trace := by
  rintro earlier event later rfl
  unfold Unraced
  split
  · rintro _ _ _ before _ _ _ since rfl rowKey _ event hevent
    exact h event (by simp [hevent]) _ _ _
  · trivial

namespace Sample

/-- A row-set stage for the executor of row sets. -/
def reviewedRequest : StageRequest :=
  { stageRequest with
    proposedEffect := { stageRequest.proposedEffect with
      executor := .builtin
      target := { stageRequest.proposedEffect.target with executor := .builtin }
      proposalKind := .rowSet } }

def reviewedWorld : EffectWorld :=
  (Program.runWith (EffectWorld.answer resolvedExternal)
    (stage (fun _ => digest) reviewedRequest stageId "t0") EffectWorld.empty).2

/-- The world in which the staging event was appended. -/
def reviewedRecord : EffectWorld :=
  (EffectWorld.answer resolvedExternal
    (.appendStageEvent stageScope (stagedEvent reviewedRequest .ask proposalRef)) EffectWorld.empty).2

theorem reviewedWorld_eq : reviewedWorld = reviewedRecord := by
  have hstaged : reviewedWorld = stagedWorld reviewedRequest := rfl
  rw [hstaged]
  exact stagedWorld_admitted (by decide +kernel) rfl

theorem reviewedWorld_ordered : reviewedWorld.ledger.Ordered := by
  have hstaged : reviewedWorld = stagedWorld reviewedRequest := rfl
  rw [hstaged, stagedWorld_eq]
  exact ordered_completes (Program.completes_runWith (EffectWorld.answer_sound _) _ _)
    StageLedger.ordered_empty

theorem reviewedWorld_clean (runId stageId : String) :
    NoHeldRowApproved (reviewedWorld.ledger.stageEvents runId stageId) := by
  have hlength : reviewedRecord.ledger.events.length ≤ 1 := by decide +kernel
  rw [reviewedWorld_eq]
  exact noHeldRowApproved_of_length ((List.length_filter_le _ _).trans hlength)

def address : StageAddress := ⟨"org-1", "user-1", "run-1", stageId⟩

def pins : ReviewedSnapshot := ⟨1, digest, digest⟩

/-- Two rows without agent holds. -/
def rowSetMaterial : RowSetMaterial := fun _ _ _ =>
  some ⟨"crm", "contacts.update", "Contacts",
    [⟨"row-1", "First", [], [], []⟩, ⟨"row-2", "Second", [], [], []⟩], []⟩

/-- The run exists and belongs to the caller. -/
def reviewExternal : (op : EffectOp) → op.Reply
  | .getRun _ _ => .ok (some ⟨"org-1", "run-1", "user-1", "talk-1"⟩)
  | op => resolvedExternal op

def playReviews (moves : List (Move ReviewCall)) :
    List ReviewEvent × Pool EffectOp EffectOp.Reply EffectError RowSetEffectReview EffectWorld :=
  Pool.play (EffectWorld.answer reviewExternal)
    (ReviewCall.body (fun _ => digest) (fun _ _ => some none) rowSetMaterial) reviewedWorld moves

def applyBoth : ReviewCall := .apply address pins ["row-1", "row-2"] 1 "t2"

/-- Both rows are applied and nobody else acts. -/
def quietReviews :
    List ReviewEvent × Pool EffectOp EffectOp.Reply EffectError RowSetEffectReview EffectWorld :=
  playReviews (.start applyBoth :: List.replicate 12 (.perform 0))

/-- A row is held after the apply call has checked its rows and before it records them. -/
def racedReviews :
    List ReviewEvent × Pool EffectOp EffectOp.Reply EffectError RowSetEffectReview EffectWorld :=
  playReviews (.start applyBoth :: List.replicate 6 (.perform 0) ++
    .start (.recordRowDecisions address pins [("row-1", .hold)] "t1") ::
    List.replicate 11 (.perform 1) ++ List.replicate 6 (.perform 0))

/-- The type of an attempted append. -/
def appendedType : ReviewEvent → Option String
  | .performed _ (.appendStageEvent _ draft) _ => some draft.eventType
  | _ => none

/-- The last event approves a row that the events before it hold. -/
def approvesHeldLast (events : List StructuralEvent) (rowKeys : List String) : Bool :=
  events.getLast?.any fun event => (fold events.dropLast).any fun s =>
    isOpen s && (applyEvent s event).status == .approved &&
      ((applyEvent s event).decision.any fun d => d.rowKeys == some rowKeys) &&
      s.rowDecisions.any fun row => rowKeys.contains row.rowKey && row.decision == .hold

theorem not_noHeldRowApproved {events : List StructuralEvent} {rowKeys : List String}
    (h : approvesHeldLast events rowKeys = true) : ¬ NoHeldRowApproved events := by
  intro hclean
  simp only [approvesHeldLast, Option.any_eq_true, Bool.and_eq_true, beq_iff_eq,
    List.any_eq_true] at h
  obtain ⟨event, hlast, s, hfold, ⟨⟨hopen, hstatus⟩, d, hdecision, hkeys⟩, row, hrow, hnamed,
    hheld⟩ := h
  have hsplit : events = events.dropLast ++ event :: [] :=
    (List.dropLast_append_getLast? event hlast).symm
  have happroved := hclean _ event [] hsplit s hfold rowKeys ⟨hopen, hstatus, d, hdecision, hkeys⟩
    row.rowKey (by simpa using hnamed) row hrow rfl
  rw [hheld] at happroved
  cases happroved

end Sample

def Sample.quietFacts :
    PLift (Sample.quietReviews.1.filterMap Sample.appendedType = [eventDecision] ∧
      ((fold (Sample.quietReviews.2.shared.ledger.stageEvents "run-1" Sample.stageId)).bind
        fun s => s.decision).any (fun d => d.rowKeys == some ["row-1", "row-2"]) = true) :=
  ⟨by
    rw [Sample.quietReviews, Sample.playReviews, Sample.reviewedWorld_eq]
    decide +kernel⟩

def Sample.racedApproval :
    PLift (Sample.approvesHeldLast
      (Sample.racedReviews.2.shared.ledger.stageEvents "run-1" Sample.stageId)
      ["row-1", "row-2"] = true) :=
  ⟨by
    rw [Sample.racedReviews, Sample.playReviews, Sample.reviewedWorld_eq]
    decide +kernel⟩

end CopilotRuntime.Effects
