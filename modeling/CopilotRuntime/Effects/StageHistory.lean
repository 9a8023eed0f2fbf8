import CopilotRuntime.Effects.Operations

/-!
# What a longer history may change

The ledger only grows, and within a run its positions increase. A longer
history therefore extends a shorter one, and folding it continues from the
shorter fold. A decision the fold accepted stays the decision of its revision
for good; only a later revision replaces it.
-/

namespace CopilotRuntime.Effects

open Foundation

namespace StageLedger

/-- Positions increase within each run, and every event carries the id of its position. -/
structure Ordered (l : StageLedger) : Prop where
  increasing : l.events.Pairwise fun a b => a.runId = b.runId → a.sequenceNo < b.sequenceNo
  named : ∀ e ∈ l.events, LedgerIdCodec.format e.runId e.sequenceNo = some e.ledgerId

theorem ordered_empty : empty.Ordered := ⟨.nil, by simp [empty]⟩

variable {l : StageLedger}

/-- Recording one next event keeps the order. -/
theorem Ordered.push (h : l.Ordered) (draft : StageEventDraft) {event : StructuralEvent}
    (next : l.isNext event) : (l.push draft event).Ordered where
  increasing := by
    refine List.pairwise_append.mpr ⟨h.increasing, List.pairwise_singleton _ _, ?_⟩
    intro a ha b hb hrun
    obtain rfl := List.mem_singleton.mp hb
    exact next.1 a ha hrun
  named := by
    intro e he
    rcases List.mem_append.mp he with he | he
    · exact h.named e he
    · obtain rfl := List.mem_singleton.mp he
      exact next.2

theorem mem_stageEvents {runId stageId : String} {e : StructuralEvent} :
    e ∈ l.stageEvents runId stageId ↔
      e ∈ l.events ∧ e.runId = runId ∧ Payload.string e.payload "stage_id" = some stageId := by
  simp [stageEvents]

/-- One stage's events are listed in strictly increasing order. -/
theorem Ordered.stageEvents_increasing (h : l.Ordered) (runId stageId : String) :
    (l.stageEvents runId stageId).Pairwise fun a b => a.sequenceNo < b.sequenceNo := by
  refine (h.increasing.filter _).imp_of_mem ?_
  intro a b ha hb hlt
  exact hlt ((mem_stageEvents.mp ha).2.1.trans (mem_stageEvents.mp hb).2.1.symm)

/-- Within a run, a ledger id names one event. -/
theorem Ordered.eq_of_ledgerId (h : l.Ordered) {runId stageId : String} {a b : StructuralEvent}
    (ha : a ∈ l.stageEvents runId stageId) (hb : b ∈ l.stageEvents runId stageId)
    (hid : a.ledgerId = b.ledgerId) : a = b := by
  obtain ⟨hamem, harun, _⟩ := mem_stageEvents.mp ha
  obtain ⟨hbmem, hbrun, _⟩ := mem_stageEvents.mp hb
  have hanamed := h.named a hamem
  have hbnamed := h.named b hbmem
  rw [harun, hid] at hanamed
  rw [hbrun] at hbnamed
  have hseq := LedgerIdCodec.format_injective hanamed hbnamed
  by_contra hne
  have : Std.Symm fun a b : StructuralEvent => a.sequenceNo ≠ b.sequenceNo :=
    ⟨fun _ _ hab hba => hab hba.symm⟩
  have hpairwise : (l.stageEvents runId stageId).Pairwise fun a b => a.sequenceNo ≠ b.sequenceNo :=
    (h.stageEvents_increasing runId stageId).imp fun hlt => Nat.ne_of_lt hlt
  exact hpairwise.forall ha hb hne hseq

/-- A push extends every stage's list of events. -/
theorem stageEvents_push (l : StageLedger) (draft : StageEventDraft) (event : StructuralEvent)
    (runId stageId : String) :
    l.stageEvents runId stageId <+: (l.push draft event).stageEvents runId stageId := by
  unfold stageEvents push
  rw [List.filter_append]
  exact List.prefix_append _ _

end StageLedger

variable {w w' : EffectWorld}

/-- No operation does more to the ledger than record one next event. -/
theorem EffectWorld.ledger_cases {op : EffectOp} {reply : op.Reply}
    (env : EffectWorld.env op w reply w') :
    w'.ledger = w.ledger ∨
      ∃ draft event, w.ledger.isNext event ∧ w'.ledger = w.ledger.push draft event := by
  cases op with
  | appendStageEvent scope draft =>
      obtain ⟨l, happend, rfl⟩ := env
      rcases happend.events_cases with rfl | ⟨event, _, hnext, _, _, rfl⟩
      · exact .inl rfl
      · exact .inr ⟨draft, event, hnext, rfl⟩
  | enqueueAfterDecision command =>
      rcases env with ⟨_, rfl⟩ | ⟨_, _, rfl | rfl⟩ <;> exact .inl rfl
  | claimGet key => rw [env.2]; exact .inl rfl
  | claimGetByClaimId orgId claimId => rw [env.2]; exact .inl rfl
  | claimCreate claim => rw [env.2]; exact .inl rfl
  | claimUpdate claim => rw [env.2]; exact .inl rfl
  | listStageEvents scope stageId => rw [env.2]; exact .inl rfl
  | prepare executor request => obtain rfl := env; exact .inl rfl
  | authorize executor prepared => obtain rfl := env; exact .inl rfl
  | apply executor prepared => obtain rfl := env; exact .inl rfl
  | reconcile executor claim => obtain rfl := env; exact .inl rfl
  | abort executor prepared => obtain rfl := env; exact .inl rfl
  | observe scope claim => obtain rfl := env; exact .inl rfl
  | cancellation scope request => obtain rfl := env; exact .inl rfl
  | isCancelled scope command => obtain rfl := env; exact .inl rfl
  | resolveScope runId => obtain rfl := env; exact .inl rfl
  | resolveExecutor kind scope => obtain rfl := env; exact .inl rfl
  | digestReference scope reference => obtain rfl := env; exact .inl rfl
  | audit action facts => obtain rfl := env; exact .inl rfl
  | getRun orgId runId => rw [env.2]; exact .inl rfl
  | listWriteEvents orgId runId => rw [env.2]; exact .inl rfl
  | emitWriteEvent run draft => rcases env with ⟨_, _, _, _, _, rfl, _⟩ | ⟨_, rfl⟩ <;> exact .inl rfl
  | enqueueStageCommit command => rcases env with ⟨_, rfl⟩ | ⟨_, _, rfl | rfl⟩ <;> exact .inl rfl

/-- Every operation keeps the order and extends every stage's list of events. -/
theorem EffectWorld.ledger_grows {op : EffectOp} {reply : op.Reply}
    (env : EffectWorld.env op w reply w') (ordered : w.ledger.Ordered) :
    w'.ledger.Ordered ∧
      ∀ runId stageId, w.ledger.stageEvents runId stageId <+: w'.ledger.stageEvents runId stageId := by
  rcases EffectWorld.ledger_cases env with heq | ⟨draft, event, hnext, heq⟩
  · rw [heq]
    exact ⟨ordered, fun _ _ => List.prefix_rfl⟩
  · rw [heq]
    exact ⟨ordered.push draft hnext, StageLedger.stageEvents_push _ _ _⟩

/-- A program keeps the order of the ledger. -/
theorem ordered_completes {α : Type} {p : EffectProgram α} {result : Except EffectError α}
    (h : p.Completes EffectWorld.env w result w') (ordered : w.ledger.Ordered) :
    w'.ledger.Ordered := by
  induction h with
  | done | raised => exact ordered
  | await effect _ ih => exact ih (EffectWorld.ledger_grows effect ordered).1

namespace EffectStageFold

variable {events : List StructuralEvent}

/-- In ledger order no sorting is needed. -/
theorem fold_eq_foldl (h : events.Pairwise fun a b => a.sequenceNo < b.sequenceNo) :
    fold events = events.foldl foldStep none := by
  have hsorted : events.Pairwise eventLe := h.imp fun hlt => Or.inl hlt
  rw [fold, hsorted.insertionSort_eq]

/-- A state the fold may reach from another: a later revision is current, or the same
revision is, and then a decision that was made still stands. -/
def Later (s s' : EffectStageState) : Prop :=
  s.currentRevision.revision < s'.currentRevision.revision ∨
    (s'.currentRevision = s.currentRevision ∧
      (isOpen s = false → s'.status = s.status ∧ s'.decision = s.decision))

theorem Later.refl (s : EffectStageState) : Later s s := .inr ⟨rfl, fun _ => ⟨rfl, rfl⟩⟩

variable {s : EffectStageState}

theorem Later.trans {s' s'' : EffectStageState} (h : Later s s') (h' : Later s' s'') :
    Later s s'' := by
  rcases h with hlt | ⟨hrev, hkeep⟩ <;> rcases h' with hlt' | ⟨hrev', hkeep'⟩
  · exact .inl (Nat.lt_trans hlt hlt')
  · exact .inl (hrev' ▸ hlt)
  · exact .inl (hrev ▸ hlt')
  · refine .inr ⟨hrev'.trans hrev, fun hclosed => ?_⟩
    obtain ⟨hstatus, hdecision⟩ := hkeep hclosed
    have hclosed' : isOpen s' = false := by
      unfold isOpen at hclosed ⊢
      rw [hstatus]
      exact hclosed
    obtain ⟨hstatus', hdecision'⟩ := hkeep' hclosed'
    exact ⟨hstatus'.trans hstatus, hdecision'.trans hdecision⟩

variable {r : EffectStageRevision}

/-- A validated revision passed its own checks. -/
theorem modelValidate_eq_some {own : EffectStageRevision}
    (h : own.modelValidate = some r) :
    own.ownErrors = [] ∧ r = { own with proposalMediaType := Text.lower own.proposalMediaType } := by
  unfold EffectStageRevision.modelValidate at h
  split at h
  · next hvalid =>
      refine ⟨?_, (Option.some.inj h).symm⟩
      unfold EffectStageRevision.errors at hvalid
      split at hvalid
      · next hown => exact hown
      · next hfound => exact (hfound hvalid).elim
  · cases h

theorem revision_readRevision {p : Payload} {stageId : String} {n : Nat} {diff : Option String}
    (h : readRevision p stageId n diff = some r) : r.revision = n := by
  simp only [readRevision, Option.bind_eq_bind, Option.bind_eq_some_iff] at h
  obtain ⟨_, _, _, _, _, _, _, _, _, _, _, _, _, _, _, _, _, _, _, _, _, _, hvalid⟩ := h
  obtain ⟨-, rfl⟩ := modelValidate_eq_some hvalid
  rfl

variable {event : StructuralEvent}

theorem revision_nextRevision (h : nextRevision s event = some r) :
    r.revision = s.currentRevision.revision + 1 := by
  simp only [nextRevision, Option.bind_eq_bind, Option.bind_eq_some_iff,
    Option.guard_eq_some'] at h
  obtain ⟨_, _, n, _, _, hn, _, _, r', hread, _, _, hr⟩ := h
  obtain rfl : r' = r := Option.some.inj hr
  exact (revision_readRevision hread).trans hn

/-- What one event may do to an opened stage. -/
inductive EventStep (s : EffectStageState) (event : StructuralEvent) : EffectStageState → Prop
  | ignored : EventStep s event s
  | revised {r : EffectStageRevision} (live : s.status ≠ .cancelled)
      (read : nextRevision s event = some r) :
      EventStep s event
        { s with
          earlierRevisions := s.revisions
          currentRevision := r
          status := if (approvedRevision s).isSome then .held else .revised
          decision := none
          rowDecisions := []
          projectionBinding := none
          supersededRevision := approvedRevision s
          updatedAt := event.createdAt }
  | bound {b : EffectProjectionBinding} (required : s.projectionRequired = true)
      (live : s.status ≠ .cancelled) (read : readBinding event = some b)
      (current : s.bindsCurrent b = true) (unbound : s.projectionBinding = none) :
      EventStep s event { s with projectionBinding := some b, updatedAt := event.createdAt }
  | decided {d : EffectStageDecision} (kind : event.eventType = eventDecision)
      (stage : Payload.string event.payload "stage_id" = some s.stageId) (waiting : isOpen s = true)
      (policy : s.policy ≠ .block) (read : readDecision event = some d)
      (applies : decisionApplies s d = true) :
      EventStep s event
        { s with status := statusOf d.decision, decision := some d, updatedAt := event.createdAt }
  | rowsDecided {updates : List EffectRowDecisionState} (kind : event.eventType = eventRowDecisions)
      (stage : Payload.string event.payload "stage_id" = some s.stageId)
      (rowSet : s.currentRevision.proposalKind = .rowSet) (waiting : isOpen s = true)
      (read : readRowDecisions s event = some updates) :
      EventStep s event
        { s with
          rowDecisions := mergeRowDecisions s.rowDecisions updates
          updatedAt := event.createdAt }

theorem eventStep_applyRevision (s : EffectStageState) (event : StructuralEvent) :
    EventStep s event (applyRevision s event) := by
  unfold applyRevision
  split
  · exact .ignored
  · next hlive =>
      cases hread : nextRevision s event with
      | none => exact .ignored
      | some r => exact .revised hlive hread

theorem eventStep_applyProjectionBinding (s : EffectStageState) (event : StructuralEvent) :
    EventStep s event (applyProjectionBinding s event) := by
  unfold applyProjectionBinding
  split
  · exact .ignored
  · next hlive =>
      simp only [Bool.or_eq_true, Bool.not_eq_eq_eq_not, Bool.not_true, decide_eq_true_eq, not_or,
        Bool.not_eq_false] at hlive
      cases hread : readBinding event with
      | none => exact .ignored
      | some b =>
          dsimp only
          split
          · exact .ignored
          · next hbinds =>
              simp only [Bool.or_eq_true, Bool.not_eq_eq_eq_not, Bool.not_true, not_or,
                Bool.not_eq_false, Option.not_isSome_iff_eq_none] at hbinds
              exact .bound hlive.1 hlive.2 hread hbinds.1 hbinds.2

theorem eventStep_applyDecision (hkind : event.eventType = eventDecision)
    (hstage : Payload.string event.payload "stage_id" = some s.stageId) :
    EventStep s event (applyDecision s event) := by
  unfold applyDecision
  split
  · exact .ignored
  · next hwaiting =>
      simp only [Bool.or_eq_true, Bool.not_eq_eq_eq_not, Bool.not_true, decide_eq_true_eq, not_or,
        Bool.not_eq_false] at hwaiting
      cases hread : readDecision event with
      | none => exact .ignored
      | some d =>
          dsimp only
          split
          · next happlies => exact .decided hkind hstage hwaiting.1 hwaiting.2 hread happlies
          · exact .ignored

theorem eventStep_applyRowDecisions (hkind : event.eventType = eventRowDecisions)
    (hstage : Payload.string event.payload "stage_id" = some s.stageId) :
    EventStep s event (applyRowDecisions s event) := by
  unfold applyRowDecisions
  split
  · exact .ignored
  · next hwaiting =>
      simp only [bne_iff_ne, Bool.or_eq_true, Bool.not_eq_eq_eq_not, Bool.not_true, not_or,
        Bool.not_eq_false, ne_eq, Decidable.not_not] at hwaiting
      cases hread : readRowDecisions s event with
      | none => exact .ignored
      | some updates => exact .rowsDecided hkind hstage hwaiting.1 hwaiting.2 hread

/-- Every event is ignored or makes one of the four transitions. -/
theorem eventStep_applyEvent (s : EffectStageState) (event : StructuralEvent) :
    EventStep s event (applyEvent s event) := by
  unfold applyEvent
  split
  · exact .ignored
  · split
    · exact .ignored
    · next hstage =>
        have hstage := not_not.mp hstage
        split
        · exact eventStep_applyRevision s event
        · split
          · exact eventStep_applyProjectionBinding s event
          · split
            · next hkind => exact eventStep_applyDecision hkind hstage
            · split
              · next hkind => exact eventStep_applyRowDecisions hkind hstage
              · exact .ignored

theorem EventStep.later {s' : EffectStageState} (h : EventStep s event s') : Later s s' := by
  cases h with
  | ignored => exact Later.refl s
  | revised _ read => exact .inl (by simp [revision_nextRevision read])
  | bound | rowsDecided => exact .inr ⟨rfl, fun _ => ⟨rfl, rfl⟩⟩
  | decided _ _ waiting =>
      refine .inr ⟨rfl, fun hclosed => ?_⟩
      rw [waiting] at hclosed
      cases hclosed

theorem later_applyEvent (s : EffectStageState) (event : StructuralEvent) :
    Later s (applyEvent s event) :=
  (eventStep_applyEvent s event).later

/-- Folding on from a state leads to a later one. -/
theorem later_foldl (events : List StructuralEvent) (s : EffectStageState) :
    ∃ s', events.foldl foldStep (some s) = some s' ∧ Later s s' := by
  induction events generalizing s with
  | nil => exact ⟨s, rfl, Later.refl s⟩
  | cons event rest ih =>
      obtain ⟨s', heq, hlater⟩ := ih (applyEvent s event)
      exact ⟨s', heq, (later_applyEvent s event).trans hlater⟩

/-- The fold of a longer history is later than the fold of a shorter one. -/
theorem later_of_prefix {more : List StructuralEvent} (hpre : events <+: more)
    (h : more.Pairwise fun a b => a.sequenceNo < b.sequenceNo) (hfold : fold events = some s) :
    ∃ s', fold more = some s' ∧ Later s s' := by
  obtain ⟨rest, rfl⟩ := hpre
  rw [fold_eq_foldl h, List.foldl_append,
    ← fold_eq_foldl (h.sublist (List.sublist_append_left _ _)), hfold]
  exact later_foldl rest s

/-- The state's decision was read from a decision event of the history. -/
def DecisionRecorded (events : List StructuralEvent) (s : EffectStageState) : Prop :=
  ∀ d, s.decision = some d →
    ∃ event ∈ events, event.eventType = eventDecision ∧
      Payload.string event.payload "stage_id" = some s.stageId ∧ readDecision event = some d

/-- An event keeps the stage id, and a decision it brings is the one it carries. -/
theorem decision_applyEvent (s : EffectStageState) (event : StructuralEvent) :
    (applyEvent s event).stageId = s.stageId ∧
      ((applyEvent s event).decision = s.decision ∨ (applyEvent s event).decision = none ∨
        event.eventType = eventDecision ∧
          Payload.string event.payload "stage_id" = some s.stageId ∧
          (applyEvent s event).decision = readDecision event) := by
  have hstep := eventStep_applyEvent s event
  generalize applyEvent s event = s' at hstep
  cases hstep with
  | ignored | bound | rowsDecided => exact ⟨rfl, .inl rfl⟩
  | revised => exact ⟨rfl, .inr (.inl rfl)⟩
  | decided kind stage _ _ read => exact ⟨rfl, .inr (.inr ⟨kind, stage, read.symm⟩)⟩

theorem DecisionRecorded.applyEvent {seen : List StructuralEvent} (h : DecisionRecorded seen s)
    (event : StructuralEvent) :
    DecisionRecorded (seen ++ [event]) (applyEvent s event) := by
  intro d hd
  obtain ⟨hstage, hsame | hnone | ⟨htype, hid, hread⟩⟩ := decision_applyEvent s event
  · obtain ⟨e, he, htype, hid, hread⟩ := h d (hsame ▸ hd)
    exact ⟨e, List.mem_append_left _ he, htype, hstage ▸ hid, hread⟩
  · rw [hnone] at hd
    cases hd
  · exact ⟨event, List.mem_append_right _ (List.mem_singleton.mpr rfl), htype, hstage ▸ hid,
      hread ▸ hd⟩

theorem decision_stateFromStaged (h : stateFromStaged event = some s) : s.decision = none := by
  obtain ⟨facts, _, hstate⟩ := Option.bind_eq_some_iff.mp h
  rw [← (validated_eq_some hstate).1]
  rfl

/-- The decision of a folded state was recorded in the history. -/
theorem decisionRecorded_fold (h : events.Pairwise fun a b => a.sequenceNo < b.sequenceNo)
    (hfold : fold events = some s) : DecisionRecorded events s := by
  have hgoal (rest seen : List StructuralEvent) (state : Option EffectStageState)
      (hseen : ∀ s, state = some s → DecisionRecorded seen s)
      (hrest : rest.foldl foldStep state = some s) : DecisionRecorded (seen ++ rest) s := by
    induction rest generalizing seen state with
    | nil => simpa using hseen s hrest
    | cons event rest ih =>
        rw [List.append_cons]
        refine ih (seen ++ [event]) (foldStep state event) (fun s' hs' => ?_) hrest
        cases state with
        | none =>
            intro d hd
            simp only [foldStep] at hs'
            split at hs'
            · rw [decision_stateFromStaged hs'] at hd
              cases hd
            · cases hs'
        | some s₀ =>
            obtain rfl := Option.some.inj hs'
            exact (hseen s₀ rfl).applyEvent event
  rw [fold_eq_foldl h] at hfold
  exact hgoal events [] none (by simp) hfold

/-- What a staging event establishes and every event of the history keeps holds of a folded
state. -/
theorem fold_induction_staged {Q : EffectStageState → Prop} (opened : ∀ event ∈ events, event.eventType = eventStaged →
      ∀ s, stateFromStaged event = some s → Q s)
    (step : ∀ s, ∀ event ∈ events, Q s → Q (applyEvent s event))
    (hfold : fold events = some s) : Q s := by
  have hgoal (rest : List StructuralEvent) (hrest : ∀ event ∈ rest, event ∈ events)
      (state : Option EffectStageState) (hstate : ∀ s, state = some s → Q s)
      (hfolded : rest.foldl foldStep state = some s) : Q s := by
    induction rest generalizing state with
    | nil => exact hstate s hfolded
    | cons event rest ih =>
        obtain ⟨hevent, hothers⟩ := List.forall_mem_cons.mp hrest
        refine ih hothers (foldStep state event) (fun s' hs' => ?_) hfolded
        cases state with
        | none =>
            simp only [foldStep] at hs'
            split at hs'
            · next hkind => exact opened event hevent hkind s' hs'
            · cases hs'
        | some s₀ =>
            obtain rfl := Option.some.inj hs'
            exact step s₀ event hevent (hstate s₀ rfl)
  exact hgoal _ (fun event hevent => (List.mem_insertionSort _).mp hevent) none (by simp) hfold

/-- What opening establishes and every event of the history keeps holds of a folded state. -/
theorem fold_induction {Q : EffectStageState → Prop}
    (opened : ∀ event ∈ events, ∀ s, stateFromStaged event = some s → Q s)
    (step : ∀ s, ∀ event ∈ events, Q s → Q (applyEvent s event)) (hfold : fold events = some s) :
    Q s :=
  fold_induction_staged (fun event hevent _ => opened event hevent) step hfold

/-- An approved stage holds the approval that made it so. -/
def ApprovedByDecision (s : EffectStageState) : Prop :=
  s.status = .approved → ∃ d, s.decision = some d ∧ d.decision = .approve

theorem ApprovedByDecision.applyEvent (h : ApprovedByDecision s) (event : StructuralEvent) :
    ApprovedByDecision (applyEvent s event) := by
  have hstep := eventStep_applyEvent s event
  generalize EffectStageFold.applyEvent s event = s' at hstep ⊢
  cases hstep with
  | ignored | bound | rowsDecided => exact h
  | revised =>
      intro hstatus
      dsimp only at hstatus
      split at hstatus <;> cases hstatus
  | @decided d =>
      intro hstatus
      refine ⟨d, rfl, ?_⟩
      cases hd : d.decision <;> simp [hd, statusOf] at hstatus ⊢

theorem approvedByDecision_fold (hfold : fold events = some s) : ApprovedByDecision s := by
  refine fold_induction (fun event _ s hopened => ?_) (fun s event _ h => h.applyEvent event) hfold
  obtain ⟨facts, _, hstate⟩ := Option.bind_eq_some_iff.mp hopened
  rw [← (validated_eq_some hstate).1]
  intro hstatus
  dsimp only [openedState] at hstatus
  split at hstatus <;> cases hstatus

end EffectStageFold

end CopilotRuntime.Effects
