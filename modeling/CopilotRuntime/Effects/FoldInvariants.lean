import CopilotRuntime.Effects.StageHistory
import Mathlib.Data.String.Basic

/-!
# What every folded stage satisfies

The transitions rebuild the state without running its validator, from payloads
anyone may have written. The facts that tie its fields together are kept by
each transition, so the validator accepts every folded state.
-/

namespace CopilotRuntime.Effects

open Foundation

namespace EffectStageFold

/-- The event recorded the row's posture for the current revision of the stage. -/
def RecordsRow (s : EffectStageState) (row : EffectRowDecisionState) (event : StructuralEvent) :
    Prop :=
  event.eventType = eventRowDecisions ∧ event.ledgerId = row.ledgerId ∧
    Payload.string event.payload "stage_id" = some s.stageId ∧
    Payload.natural event.payload "revision" = some s.currentRevision.revision ∧
    Payload.string event.payload "proposal_digest" = some s.currentRevision.proposalDigest ∧
    Payload.string event.payload "target_digest" = some s.targetDigest

/-- The facts that tie the fields of a folded stage together. -/
structure Sound (events : List StructuralEvent) (s : EffectStageState) : Prop where
  numbered : s.revisions.map (fun r => r.revision) = List.range' 1 s.revisions.length
  target : ∀ r ∈ s.revisions, r.targetRef = s.target.targetRef ∧ r.targetDigest = s.targetDigest ∧
    r.displayTarget = s.displayTarget
  precondition : ∀ r ∈ s.revisions, r.preconditionRef = s.initialRevision.preconditionRef ∧
    r.preconditionDigest = s.initialRevision.preconditionDigest
  proposal : ∀ r ∈ s.revisions,
    ProposalUriCodec.parse r.proposalRef = some ⟨s.stageId, r.revision⟩
  decided : s.decision.isSome ↔
    s.status = .approved ∨ s.status = .rejected ∨ s.status = .cancelled
  decision : ∀ d, s.decision = some d → s.status = statusOf d.decision ∧ d.decision ≠ .restore ∧
    d.revision = s.currentRevision.revision ∧
    d.proposalDigest = s.currentRevision.proposalDigest ∧
    d.targetDigest = s.currentRevision.targetDigest
  blocked : s.policy = .block → s.decision = none
  policyActor : ∀ d, s.decision = some d → d.actor.actor = .policy → s.policy = .auto
  binding : ∀ b, s.projectionBinding = some b → b.revision = s.currentRevision.revision ∧
    b.proposalDigest = s.currentRevision.proposalDigest ∧
    b.targetDigest = s.currentRevision.targetDigest
  rowKeys : (s.rowDecisions.map fun row => row.rowKey).Pairwise (· < ·)
  rows : ∀ row ∈ s.rowDecisions, ∃ event ∈ events, RecordsRow s row event

variable {events : List StructuralEvent} {s : EffectStageState}

theorem targetDigest_currentRevision (h : Sound events s) :
    s.currentRevision.targetDigest = s.targetDigest :=
  (h.target _ (List.mem_append_right _ (List.mem_singleton.mpr rfl))).2.1

/-! ### What the readers establish -/

/-- Both spellings of a proposal reference end as the canonical one. -/
theorem parse_normaliseProposalReferences {p : Payload} {stageId reference : String} {revision : Nat}
    {contentRef : Option String}
    (h : normaliseProposalReferences p stageId revision = some (reference, contentRef)) :
    ProposalUriCodec.parse reference = some ⟨stageId, revision⟩ := by
  simp only [normaliseProposalReferences, Option.bind_eq_bind, Option.bind_eq_some_iff] at h
  obtain ⟨raw, _, content, _, canonical, hformat, h⟩ := h
  cases hparse : ProposalUriCodec.parse raw with
  | none =>
      rw [hparse] at h
      dsimp only at h
      split at h
      · cases h
        exact ProposalUriCodec.parse_format hformat
      · cases h
  | some parsed =>
      rw [hparse] at h
      dsimp only at h
      split at h
      · next hsame =>
          cases h
          rw [hparse, hsame]
      · cases h

theorem proposal_readRevision {p : Payload} {stageId : String} {n : Nat} {diff : Option String}
    {r : EffectStageRevision} (h : readRevision p stageId n diff = some r) :
    ProposalUriCodec.parse r.proposalRef = some ⟨stageId, n⟩ := by
  simp only [readRevision, Option.bind_eq_bind, Option.bind_eq_some_iff] at h
  obtain ⟨⟨reference, content⟩, hreference, _, _, _, _, _, _, _, _, _, _, _, _, _, _, _, _, _, _, _,
    _, hvalid⟩ := h
  obtain ⟨-, rfl⟩ := modelValidate_eq_some hvalid
  exact parse_normaliseProposalReferences hreference

variable {event : StructuralEvent}

/-- The next revision keeps what is immutable about its stage. -/
theorem nextRevision_spec {r : EffectStageRevision} (h : nextRevision s event = some r) :
    r.revision = s.currentRevision.revision + 1 ∧
      ProposalUriCodec.parse r.proposalRef = some ⟨s.stageId, r.revision⟩ ∧
      revisionRetainsTarget s r = true := by
  have hrevision := revision_nextRevision h
  simp only [nextRevision, Option.bind_eq_bind, Option.bind_eq_some_iff,
    Option.guard_eq_some'] at h
  obtain ⟨_, _, n, _, _, hn, diff, _, r', hread, _, hretains, hr⟩ := h
  obtain rfl : r' = r := Option.some.inj hr
  refine ⟨hrevision, ?_, hretains⟩
  rw [hrevision, ← hn]
  exact proposal_readRevision hread

/-- The rows read so far have distinct keys and carry the event's ledger id. -/
theorem readRowDecision_spec {actor : EffectActorIdentity} {decidedAt ledgerId : String}
    {seen rows : List EffectRowDecisionState} {item : Json}
    (h : readRowDecision actor decidedAt ledgerId seen item = some rows)
    (hkeys : (seen.map fun r => r.rowKey).Nodup) (hids : ∀ r ∈ seen, r.ledgerId = ledgerId) :
    (rows.map fun r => r.rowKey).Nodup ∧ ∀ r ∈ rows, r.ledgerId = ledgerId := by
  cases item with
  | obj fields =>
      simp only [readRowDecision, Option.bind_eq_bind, Option.bind_eq_some_iff,
        Option.guard_eq_some'] at h
      obtain ⟨rowKey, _, decision, _, _, hnew, row, hvalid, hrows⟩ := h
      obtain rfl := (validated_eq_some hvalid).1
      obtain rfl : seen ++ [_] = rows := Option.some.inj hrows
      constructor
      · rw [List.map_append, List.map_singleton]
        refine List.Nodup.append hkeys (List.nodup_singleton _) ?_
        simpa [List.disjoint_singleton] using hnew
      · intro r hr
        rcases List.mem_append.mp hr with hr | hr
        · exact hids r hr
        · obtain rfl := List.mem_singleton.mp hr
          rfl
  | null | bool | int | str | arr => cases h

theorem readRowDecisions_spec {rows : List EffectRowDecisionState}
    (h : readRowDecisions s event = some rows) :
    (rows.map fun r => r.rowKey).Nodup ∧ (∀ r ∈ rows, r.ledgerId = event.ledgerId) ∧
      Payload.natural event.payload "revision" = some s.currentRevision.revision ∧
      Payload.string event.payload "proposal_digest" = some s.currentRevision.proposalDigest ∧
      Payload.string event.payload "target_digest" = some s.targetDigest := by
  simp only [readRowDecisions, Option.bind_eq_bind, Option.bind_eq_some_iff,
    Option.guard_eq_some'] at h
  obtain ⟨_, _, revision, hrevision, proposalDigest, hproposal, targetDigest, htarget, _, hcurrent,
    actor, _, decidedAt, _, hrows⟩ := h
  simp only [Bool.and_eq_true, decide_eq_true_eq] at hcurrent
  obtain ⟨⟨rfl, rfl⟩, rfl⟩ := hcurrent
  have hfolded (items : List Json) (seen rows : List EffectRowDecisionState)
      (hkeys : (seen.map fun r => r.rowKey).Nodup) (hids : ∀ r ∈ seen, r.ledgerId = event.ledgerId)
      (h : items.foldlM (readRowDecision actor decidedAt event.ledgerId) seen = some rows) :
      (rows.map fun r => r.rowKey).Nodup ∧ ∀ r ∈ rows, r.ledgerId = event.ledgerId := by
    induction items generalizing seen with
    | nil =>
        obtain rfl : seen = rows := Option.some.inj h
        exact ⟨hkeys, hids⟩
    | cons item rest ih =>
        rw [List.foldlM_cons] at h
        obtain ⟨next, hnext, hrest⟩ := Option.bind_eq_some_iff.mp h
        obtain ⟨hnextKeys, hnextIds⟩ := readRowDecision_spec hnext hkeys hids
        exact ih next hnextKeys hnextIds hrest
  cases hitems : Json.lookup event.payload "decisions" with
  | none => simp [hitems] at hrows
  | some value =>
      cases value with
      | arr items =>
          simp only [hitems, Option.bind_eq_some_iff, Option.guard_eq_some'] at hrows
          obtain ⟨_, _, hrows⟩ := hrows
          obtain ⟨hkeys, hids⟩ := hfolded items [] rows List.nodup_nil (by simp) hrows
          exact ⟨hkeys, hids, hrevision, hproposal, htarget⟩
      | null | bool | int | str | obj => simp [hitems] at hrows

/-- Merging keeps one decision for each row, in the order of the keys. -/
theorem rowKeys_mergeRowDecisions {old updates : List EffectRowDecisionState}
    (hold : (old.map fun r => r.rowKey).Nodup) (hupdates : (updates.map fun r => r.rowKey).Nodup) :
    ((mergeRowDecisions old updates).map fun r => r.rowKey).Pairwise (· < ·) := by
  unfold mergeRowDecisions
  dsimp only
  generalize hkept : old.filter
    (fun r => !(updates.map fun u => u.rowKey).contains r.rowKey) = kept
  have hnodup : ((kept ++ updates).map fun r => r.rowKey).Nodup := by
    rw [List.map_append]
    refine List.Nodup.append (hkept ▸ hold.sublist (List.filter_sublist.map _)) hupdates ?_
    intro key hkey hupdated
    obtain ⟨r, hr, rfl⟩ := List.mem_map.mp hkey
    rw [← hkept] at hr
    have hfresh := (List.mem_filter.mp hr).2
    simp only [Bool.not_eq_eq_eq_not, Bool.not_true, List.contains_eq_mem,
      decide_eq_false_iff_not] at hfresh
    exact hfresh hupdated
  have hsorted : ((kept ++ updates).insertionSort fun a b => a.rowKey ≤ b.rowKey).Pairwise
      fun a b => a.rowKey ≤ b.rowKey := by
    have htotal : Std.Total fun a b : EffectRowDecisionState => a.rowKey ≤ b.rowKey :=
      ⟨fun a b => le_total a.rowKey b.rowKey⟩
    have htrans : IsTrans EffectRowDecisionState fun a b => a.rowKey ≤ b.rowKey :=
      ⟨fun a b c => le_trans⟩
    exact List.pairwise_insertionSort _ _
  have hdistinct := ((List.perm_insertionSort (fun a b : EffectRowDecisionState =>
    a.rowKey ≤ b.rowKey) (kept ++ updates)).map fun r => r.rowKey).nodup_iff.mpr hnodup
  rw [List.pairwise_map]
  have hne : ((kept ++ updates).insertionSort fun a b => a.rowKey ≤ b.rowKey).Pairwise
      fun a b => a.rowKey ≠ b.rowKey := List.pairwise_map.mp hdistinct
  exact (hsorted.and hne).imp fun h => lt_of_le_of_ne h.1 h.2

theorem mem_mergeRowDecisions {old updates : List EffectRowDecisionState}
    {row : EffectRowDecisionState} (h : row ∈ mergeRowDecisions old updates) :
    row ∈ old ∨ row ∈ updates := by
  rcases List.mem_append.mp ((List.mem_insertionSort _).mp h) with hkept | hupdate
  · exact .inl (List.mem_filter.mp hkept).1
  · exact .inr hupdate

/-! ### What the transitions keep -/

section Transitions
variable {events : List StructuralEvent} {s : EffectStageState} {event : StructuralEvent}

theorem errors_eq_nil_iff : s.errors = [] ↔
    ((EffectStageIdCodec.parse s.stageId).isSome ∧ (OperationIdCodec.parse s.operationId).isSome ∧
      isSha256Hex s.targetDigest = true) ∧ ∀ check ∈ s.consistencyChecks, check.holds = true := by
  unfold EffectStageState.errors
  dsimp only
  generalize hown : fieldErrors "stage_id" _ ++ fieldErrors "operation_id" _ ++
    fieldErrors "target_digest" [sha256Hex s.targetDigest] = own
  have hvalid : own = [] ↔ (EffectStageIdCodec.parse s.stageId).isSome ∧
      (OperationIdCodec.parse s.operationId).isSome ∧ isSha256Hex s.targetDigest = true := by
    rw [← hown]
    simp [sha256Hex]
  cases own with
  | nil => simp [hvalid.mp rfl]
  | cons error rest =>
      have hnot := mt hvalid.mpr (List.cons_ne_nil _ _)
      simp [hnot]

theorem headD_revisions (s : EffectStageState) (r : EffectStageRevision) :
    s.revisions.headD r = s.initialRevision := by
  unfold EffectStageState.revisions EffectStageState.initialRevision
  cases s.earlierRevisions <;> rfl

/-- The current revision is the last number. -/
theorem Sound.revision_eq_length (h : Sound events s) :
    s.currentRevision.revision = s.revisions.length := by
  have hshape : s.revisions.map (fun r => r.revision) =
      s.earlierRevisions.map (fun r => r.revision) ++ [s.currentRevision.revision] := by
    simp [EffectStageState.revisions]
  have hlength : s.revisions.length = s.earlierRevisions.length + 1 := by
    simp [EffectStageState.revisions]
  have hnumbered := h.numbered
  rw [hshape, hlength, List.range'_concat] at hnumbered
  have hlast := List.singleton_inj.mp (List.append_inj' hnumbered rfl).2
  omega

theorem revision_readStaged {facts : StagedFacts} (h : readStaged event = some facts) :
    facts.revision.revision = 1 := by
  unfold readStaged at h
  -- the first revision is the thirteenth field that is read
  iterate 12 obtain ⟨_, _, h⟩ := Option.bind_eq_some_iff.mp h
  obtain ⟨revision, hrevision, h⟩ := Option.bind_eq_some_iff.mp h
  iterate 6 obtain ⟨_, _, h⟩ := Option.bind_eq_some_iff.mp h
  obtain rfl := Option.some.inj h
  exact revision_readRevision hrevision

/-- A validated new stage satisfies every fact. -/
theorem Sound.opened (hopened : stateFromStaged event = some s) : Sound events s := by
  obtain ⟨facts, hread, hstate⟩ := Option.bind_eq_some_iff.mp hopened
  obtain ⟨rfl, hvalid⟩ := validated_eq_some hstate
  have hfirst := revision_readStaged hread
  have hchecks := (errors_eq_nil_iff.mp hvalid).2
  simp only [EffectStageState.consistencyChecks, openedState, EffectStageState.revisions,
    List.nil_append, List.flatMap_cons, List.flatMap_nil, List.append_nil, List.cons_append,
    List.forall_mem_cons, Bool.and_eq_true, beq_iff_eq] at hchecks
  obtain ⟨⟨⟨htarget, hdigest⟩, hdisplay⟩, _, hproposal, _⟩ := hchecks
  have hstatus : (openedState facts (Payload.truthy event.payload "projection_required")).status =
      .proposed ∨
      (openedState facts (Payload.truthy event.payload "projection_required")).status = .held := by
    dsimp only [openedState]
    split
    · exact .inl rfl
    · exact .inr rfl
  constructor
  case numbered => simp [openedState, EffectStageState.revisions, hfirst]
  case target =>
    intro r hr
    obtain rfl := List.mem_singleton.mp hr
    exact ⟨htarget, hdigest, hdisplay⟩
  case precondition =>
    intro r hr
    obtain rfl := List.mem_singleton.mp hr
    exact ⟨rfl, rfl⟩
  case proposal =>
    intro r hr
    obtain rfl := List.mem_singleton.mp hr
    exact hproposal
  case decided =>
    constructor
    · intro hdecision
      cases hdecision
    · intro hclosed
      rcases hstatus with hstatus | hstatus
      · rw [hstatus] at hclosed
        simp at hclosed
      · rw [hstatus] at hclosed
        simp at hclosed
  case decision => exact fun d hd => by cases hd
  case blocked => exact fun _ => rfl
  case policyActor => exact fun d hd => by cases hd
  case binding => exact fun b hb => by cases hb
  case rowKeys => exact .nil
  case rows => exact fun row hrow => by cases hrow

theorem Sound.revised (h : Sound events s) {r : EffectStageRevision}
    (hread : nextRevision s event = some r) :
    Sound events
      { s with
        earlierRevisions := s.revisions
        currentRevision := r
        status := if (approvedRevision s).isSome then .held else .revised
        decision := none
        rowDecisions := []
        projectionBinding := none
        supersededRevision := approvedRevision s
        updatedAt := event.createdAt } := by
  obtain ⟨hnext, hproposal, hretains⟩ := nextRevision_spec hread
  simp only [revisionRetainsTarget, Bool.and_eq_true, beq_iff_eq] at hretains
  obtain ⟨⟨⟨⟨htarget, hdigest⟩, hdisplay⟩, hprecondition⟩, hpreconditionDigest⟩ := hretains
  have hcurrent := h.precondition _ (List.mem_append_right _ (List.mem_singleton.mpr rfl))
  constructor
  case numbered =>
    change (s.revisions ++ [r]).map _ = List.range' 1 (s.revisions ++ [r]).length
    rw [List.map_append, h.numbered, List.length_append, List.length_singleton,
      List.range'_concat, List.map_singleton, hnext, h.revision_eq_length]
    congr 2
    omega
  case target =>
    intro other hother
    rcases List.mem_append.mp hother with hold | hnew
    · exact h.target other hold
    · obtain rfl := List.mem_singleton.mp hnew
      exact ⟨htarget, hdigest, hdisplay⟩
  case precondition =>
    intro other hother
    change other.preconditionRef = (s.revisions.headD r).preconditionRef ∧
      other.preconditionDigest = (s.revisions.headD r).preconditionDigest
    rw [headD_revisions]
    rcases List.mem_append.mp hother with hold | hnew
    · exact h.precondition other hold
    · obtain rfl := List.mem_singleton.mp hnew
      exact ⟨hprecondition.trans hcurrent.1, hpreconditionDigest.trans hcurrent.2⟩
  case proposal =>
    intro other hother
    rcases List.mem_append.mp hother with hold | hnew
    · exact h.proposal other hold
    · obtain rfl := List.mem_singleton.mp hnew
      exact hproposal
  case decided =>
    dsimp only
    split <;> simp
  case decision => exact fun d hd => by cases hd
  case blocked => exact fun _ => rfl
  case policyActor => exact fun d hd => by cases hd
  case binding => exact fun b hb => by cases hb
  case rowKeys => exact .nil
  case rows => exact fun row hrow => by cases hrow

theorem Sound.decidedBy (h : Sound events s) {d : EffectStageDecision} (hpolicy : s.policy ≠ .block)
    (happlies : decisionApplies s d = true) :
    Sound events
      { s with status := statusOf d.decision, decision := some d, updatedAt := event.createdAt } := by
  simp only [decisionApplies, Bool.and_eq_true, beq_iff_eq, bne_iff_ne, Bool.or_eq_true]
    at happlies
  obtain ⟨⟨⟨⟨⟨hrevision, hproposal⟩, hdigest⟩, hrestore⟩, hactor⟩, _⟩ := happlies
  refine { h with decided := ?_, decision := ?_, blocked := ?_, policyActor := ?_, rows := h.rows }
  · dsimp only
    cases hkind : d.decision with
    | approve | reject | cancel => simp [statusOf]
    | restore => exact (hrestore hkind).elim
  · rintro d' ⟨⟩
    exact ⟨rfl, hrestore, hrevision, hproposal, hdigest.trans (targetDigest_currentRevision h).symm⟩
  · exact fun hblock => (hpolicy hblock).elim
  · rintro d' ⟨⟩ hpolicyActor
    rcases hactor with hother | hauto
    · exact (hother hpolicyActor).elim
    · exact hauto

/-- Every transition keeps every fact. -/
theorem Sound.step {s' : EffectStageState} (h : Sound events s) (hevent : event ∈ events)
    (step : EventStep s event s') : Sound events s' := by
  cases step with
  | ignored => exact h
  | revised _ read => exact h.revised read
  | decided _ _ _ policy _ applies => exact h.decidedBy policy applies
  | bound _ _ _ current _ =>
      refine { h with binding := ?_, rows := h.rows }
      rintro b ⟨⟩
      simp only [EffectStageState.bindsCurrent, Bool.and_eq_true, beq_iff_eq] at current
      obtain ⟨⟨hrevision, hproposal⟩, hdigest⟩ := current
      exact ⟨hrevision, hproposal, hdigest.trans (targetDigest_currentRevision h).symm⟩
  | @rowsDecided updates kind stage _ _ read =>
      obtain ⟨hkeys, hids, hrevision, hproposal, htarget⟩ := readRowDecisions_spec read
      refine { h with rowKeys := ?_, rows := ?_ }
      · exact rowKeys_mergeRowDecisions (h.rowKeys.imp ne_of_lt) hkeys
      · intro row hrow
        rcases mem_mergeRowDecisions hrow with hold | hnew
        · exact h.rows row hold
        · exact ⟨event, hevent, kind, (hids row hnew).symm, stage, hrevision, hproposal, htarget⟩

theorem consistencyChecks_of_sound (h : Sound events s) :
    ∀ check ∈ s.consistencyChecks, check.holds = true := by
  intro check hcheck
  rcases List.mem_append.mp hcheck with hrevision | hcurrent
  · obtain ⟨r, hr, hrevision⟩ := List.mem_flatMap.mp hrevision
    obtain ⟨htarget, hdigest, hdisplay⟩ := h.target r hr
    obtain ⟨hprecondition, hpreconditionDigest⟩ := h.precondition r hr
    simp only [List.mem_cons, List.not_mem_nil, or_false] at hrevision
    rcases hrevision with rfl | rfl | rfl
    · simp [htarget, hdigest, hdisplay]
    · simp [hprecondition, hpreconditionDigest]
    · simp [h.proposal r hr]
  · simp only [List.mem_cons, List.not_mem_nil, or_false] at hcurrent
    rcases hcurrent with rfl | rfl
    · dsimp only
      cases hdecision : s.decision with
      | none => rfl
      | some d => simp [(h.decision d hdecision).2.2.1]
    · dsimp only
      cases hbinding : s.projectionBinding with
      | none => rfl
      | some b =>
          obtain ⟨hrevision, hproposal, hdigest⟩ := h.binding b hbinding
          simp [EffectStageState.bindsCurrent, hrevision, hproposal, hdigest,
            targetDigest_currentRevision h]

/-- The stage ids and the target digest are those of the staging event. -/
theorem EventStep.identity {s' : EffectStageState} (step : EventStep s event s') :
    s'.stageId = s.stageId ∧ s'.operationId = s.operationId ∧ s'.targetDigest = s.targetDigest := by
  cases step <;> exact ⟨rfl, rfl, rfl⟩

end Transitions

/-- Folding keeps every fact, and the validator accepts the result. -/
theorem sound_and_valid (hfold : fold events = some s) : Sound events s ∧ s.errors = [] := by
  refine fold_induction (Q := fun s => Sound events s ∧ s.errors = []) ?_ ?_ hfold
  · intro event _ s hopened
    obtain ⟨facts, _, hstate⟩ := Option.bind_eq_some_iff.mp hopened
    exact ⟨.opened hopened, (validated_eq_some hstate).2⟩
  · rintro s event hevent ⟨hsound, hvalid⟩
    have hstep := eventStep_applyEvent s event
    have hnext := hsound.step hevent hstep
    obtain ⟨hstage, hoperation, hdigest⟩ := hstep.identity
    obtain ⟨hown, _⟩ := errors_eq_nil_iff.mp hvalid
    refine ⟨hnext, errors_eq_nil_iff.mpr ⟨?_, consistencyChecks_of_sound hnext⟩⟩
    rw [hstage, hoperation, hdigest]
    exact hown

/-! ### Longer histories -/

theorem orderedInsert_append {α : Type} (r : α → α → Prop) [DecidableRel r] {x : α} {b : List α}
    (h : ∀ y ∈ b, r x y) (a : List α) :
    (a ++ b).orderedInsert r x = a.orderedInsert r x ++ b := by
  induction a with
  | nil =>
      cases b with
      | nil => rfl
      | cons y rest => simp [List.orderedInsert, h y List.mem_cons_self]
  | cons y rest ih =>
      by_cases hxy : r x y
      · simp [List.orderedInsert, hxy]
      · simp [List.orderedInsert, hxy, ih]

/-- Events that come later are sorted behind the others. -/
theorem insertionSort_append {α : Type} (r : α → α → Prop) [DecidableRel r] {a b : List α}
    (h : ∀ x ∈ a, ∀ y ∈ b, r x y) :
    (a ++ b).insertionSort r = a.insertionSort r ++ b.insertionSort r := by
  induction a with
  | nil => rfl
  | cons x rest ih =>
      obtain ⟨hx, hrest⟩ := List.forall_mem_cons.mp h
      rw [List.cons_append, List.insertionSort_cons, ih hrest, List.insertionSort_cons]
      exact orderedInsert_append r (fun y hy => hx y ((List.mem_insertionSort _).mp hy)) _

theorem EventStep.cancelled {s' : EffectStageState} (step : EventStep s event s')
    (h : s.status = .cancelled) : s'.status = .cancelled := by
  cases step with
  | ignored | rowsDecided => exact h
  | revised live | bound _ live => exact (live h).elim
  | decided _ _ waiting => simp [isOpen, h] at waiting

theorem cancelled_foldl (h : s.status = .cancelled) :
    ∃ s', events.foldl foldStep (some s) = some s' ∧ s'.status = .cancelled := by
  induction events generalizing s with
  | nil => exact ⟨s, rfl, h⟩
  | cons event rest ih => exact ih ((eventStep_applyEvent s event).cancelled h)

/-- Whatever the events, a folded stage satisfies every fact that ties its fields together and
its own validator, and a cancelled stage stays cancelled whatever events come later. -/
theorem fold_sound {events : List StructuralEvent} {s : EffectStageState}
    (hfold : fold events = some s) :
    Sound events s ∧ s.errors = [] ∧
      (s.status = .cancelled → ∀ later, (∀ e ∈ events, ∀ e' ∈ later, eventLe e e') →
        ∃ s', fold (events ++ later) = some s' ∧ s'.status = .cancelled) := by
  obtain ⟨hsound, hvalid⟩ := sound_and_valid hfold
  refine ⟨hsound, hvalid, fun hcancelled later hlater => ?_⟩
  unfold fold at hfold ⊢
  rw [insertionSort_append eventLe hlater, List.foldl_append, hfold]
  exact cancelled_foldl hcancelled

namespace Sample

def stageId : String := "stg_0f8fad5b-d9cb-469f-a165-70867728950e"

def digest : String := "0123456789abcdef0123456789abcdef0123456789abcdef0123456789abcdef"

/-- A stage is opened and cancelled; the cancellation is recorded first but comes later. -/
def cancelledHistory : List StructuralEvent :=
  [⟨"run-1", "rrun·002", 2, eventDecision,
      [("stage_id", .str stageId), ("revision", .int 1), ("decision", .str "cancel"),
        ("actor", .str "user"), ("actor_ref", .str "principal://users/user-1"),
        ("proposal_digest", .str digest), ("target_digest", .str digest),
        ("decided_at", .str "t2")], "t2"⟩,
    ⟨"run-1", "rrun·001", 1, eventStaged,
      [("stage_id", .str stageId),
        ("operation_id", .str "op_0f8fad5b-d9cb-469f-a165-70867728950e"),
        ("executor", .str "mcp"), ("capability", .str "crm"), ("op", .str "contacts.update"),
        ("target_ref", .str "mcp://crm/contacts"), ("target_digest", .str digest),
        ("display_target", .str "Contacts"), ("proposal_kind", .str "canonical_arguments"),
        ("proposal_ref", .str ("proposal://" ++ stageId ++ "/revisions/1")),
        ("proposal_content_ref", .str "artifact://content/1"), ("proposal_digest", .str digest),
        ("proposal_media_type", .str "application/json"),
        ("effect_class", .str "external_reversible"),
        ("policy_snapshot_ref", .str "policy://snapshots/1"), ("policy", .str "ask"),
        ("agent_hold", .bool false), ("owner_ref", .str "principal://users/user-1"),
        ("author_actor", .str "user"), ("author_ref", .str "principal://users/user-1"),
        ("created_at", .str "t1")], "t1"⟩]

def cancelledStatus :
    PLift ((fold cancelledHistory).map (fun s => s.status) = some .cancelled) :=
  ⟨by decide +kernel⟩

end Sample

/-- The folded stage is cancelled and stays so. -/
theorem fold_sound_sample :
    ∃ s, fold Sample.cancelledHistory = some s ∧ s.status = .cancelled ∧
      Sound Sample.cancelledHistory s ∧ s.errors = [] ∧
      (s.status = .cancelled → ∀ later,
        (∀ e ∈ Sample.cancelledHistory, ∀ e' ∈ later, eventLe e e') →
        ∃ s', fold (Sample.cancelledHistory ++ later) = some s' ∧ s'.status = .cancelled) := by
  obtain ⟨s, hfold, hcancelled⟩ := Option.map_eq_some_iff.mp Sample.cancelledStatus.down
  exact ⟨s, hfold, hcancelled, fold_sound hfold⟩

end EffectStageFold

end CopilotRuntime.Effects
