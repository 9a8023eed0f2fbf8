import CopilotRuntime.Effects.FoldInvariants
import CopilotRuntime.Effects.Staging
import CopilotRuntime.Foundation.Outcome

/-!
# What the fold makes of a recorded event

The stager checks a request before it appends an event, and the fold checks
the event again when it reads it. For each kind of event, the lemma here says
which admitted requests the fold accepts and what state they lead to.

## Implementation notes

The two sides agree except about row keys: the writer bounds neither the
length of a row key it records nor the row keys an approval names.
-/

namespace CopilotRuntime.Effects

open Foundation

/-! ### Texts of the vocabularies -/

theorem EffectActor.parse_value (a : EffectActor) : parse a.value = some a := by
  cases a <;> rfl

theorem EffectDecisionKind.parse_value (d : EffectDecisionKind) : parse d.value = some d := by
  cases d <;> rfl

theorem EffectProposalKind.parse_value (k : EffectProposalKind) : parse k.value = some k := by
  cases k <;> rfl

/-- Two values of the row vocabulary are accepted, as texts. -/
theorem RowDecision.parse_of_admitted {text : String} (h : text = "approve" ∨ text = "hold") :
    ∃ d, parse text = some d ∧ d.value = text := by
  rcases h with rfl | rfl
  · exact ⟨.approve, rfl, rfl⟩
  · exact ⟨.hold, rfl, rfl⟩

/-! ### Requests their models admit -/

def textMaxLength : Nat := 512

namespace EffectRevisionProposal

def ownErrors (p : EffectRevisionProposal) : List FieldError :=
  fieldErrors "proposal_content_ref" [immutableContentRefCheck p.proposalContentRef] ++
  fieldErrors "proposal_digest" [sha256Hex p.proposalDigest] ++
  fieldErrors "proposal_media_type" [mediaTypeCheck p.proposalMediaType] ++
  fieldErrors "target_ref" [safeReferenceCheck "reference" p.targetRef] ++
  fieldErrors "target_digest" [sha256Hex p.targetDigest] ++
  fieldErrors "display_target"
    [⟨!(Text.strip p.displayTarget).isEmpty && p.displayTarget.length ≤ textMaxLength,
        "display_target must be a short non-empty safe label"⟩,
      ⟨!Text.hasChar p.displayTarget '\n' && !Text.hasChar p.displayTarget '\r',
        "display_target must not contain a body or path"⟩] ++
  fieldErrors "precondition_ref" (optionalSafeReference p.preconditionRef) ++
  fieldErrors "precondition_digest"
    (optionalChecks p.preconditionDigest fun digest => [sha256Hex digest]) ++
  fieldErrors "safe_diff_ref" (optionalSafeReference p.safeDiffRef)

def errors (p : EffectRevisionProposal) : List FieldError :=
  match p.ownErrors with
  | [] => fieldErrors "" [refDigestPair "precondition" p.preconditionRef p.preconditionDigest]
  | found => found

/-- Validate a proposal; media types are stored in lower case. -/
def modelValidate (p : EffectRevisionProposal) : Option EffectRevisionProposal :=
  if p.errors = [] then some { p with proposalMediaType := Text.lower p.proposalMediaType }
  else none

/-- An instance of the model: validating it again gives it back. -/
def Valid (p : EffectRevisionProposal) : Prop := p.modelValidate = some p

instance (p : EffectRevisionProposal) : Decidable p.Valid := decEq p.modelValidate (some p)

theorem Valid.errors {p : EffectRevisionProposal} (h : p.Valid) :
    p.ownErrors = [] ∧
      (refDigestPair "precondition" p.preconditionRef p.preconditionDigest).holds = true ∧
      Text.lower p.proposalMediaType = p.proposalMediaType := by
  unfold Valid modelValidate at h
  split at h
  · next hnone =>
      have hlower := congrArg EffectRevisionProposal.proposalMediaType (Option.some.inj h)
      unfold EffectRevisionProposal.errors at hnone
      split at hnone
      · next hown => exact ⟨hown, by simpa using hnone, hlower⟩
      · next hfound => exact (hfound hnone).elim
  · cases h

end EffectRevisionProposal

/-! ### Folding one event more -/

namespace EffectStageFold

/-- A stage's events fold to a state of that stage. -/
theorem stageId_fold {events : List StructuralEvent} {s : EffectStageState} {stageId : String}
    (hevents : ∀ e ∈ events, Payload.string e.payload "stage_id" = some stageId)
    (hfold : fold events = some s) : s.stageId = stageId := by
  refine fold_induction (Q := fun s => s.stageId = stageId) ?_ ?_ hfold
  · intro event hevent s hopened
    obtain ⟨facts, hread, hstate⟩ := Option.bind_eq_some_iff.mp hopened
    obtain ⟨rfl, _⟩ := validated_eq_some hstate
    unfold readStaged at hread
    obtain ⟨_, _, hread⟩ := Option.bind_eq_some_iff.mp hread
    obtain ⟨readId, hreadId, hread⟩ := Option.bind_eq_some_iff.mp hread
    iterate 17 obtain ⟨_, _, hread⟩ := Option.bind_eq_some_iff.mp hread
    obtain rfl := Option.some.inj hread
    exact Option.some.inj (hreadId.symm.trans (hevents event hevent))
  · intro s event _ hstage
    exact (eventStep_applyEvent s event).identity.1.trans hstage

/-- The current revision was read from an event, and passed its own checks. -/
theorem currentRevision_fold {events : List StructuralEvent} {s : EffectStageState}
    (hfold : fold events = some s) : ∃ own : EffectStageRevision, own.ownErrors = [] ∧
      s.currentRevision = { own with proposalMediaType := Text.lower own.proposalMediaType } := by
  have hvalidated {p : Payload} {stageId : String} {n : Nat} {diff : Option String}
      {r : EffectStageRevision} (hread : readRevision p stageId n diff = some r) :
      ∃ own : EffectStageRevision, own.ownErrors = [] ∧
        r = { own with proposalMediaType := Text.lower own.proposalMediaType } := by
    unfold readRevision at hread
    iterate 11 obtain ⟨_, _, hread⟩ := Option.bind_eq_some_iff.mp hread
    exact ⟨_, modelValidate_eq_some hread⟩
  refine fold_induction (Q := fun s => ∃ own : EffectStageRevision, own.ownErrors = [] ∧
    s.currentRevision = { own with proposalMediaType := Text.lower own.proposalMediaType })
    ?_ ?_ hfold
  · intro event _ s hopened
    obtain ⟨facts, hread, hstate⟩ := Option.bind_eq_some_iff.mp hopened
    obtain ⟨rfl, _⟩ := validated_eq_some hstate
    unfold readStaged at hread
    iterate 12 obtain ⟨_, _, hread⟩ := Option.bind_eq_some_iff.mp hread
    obtain ⟨revision, hrevision, hread⟩ := Option.bind_eq_some_iff.mp hread
    iterate 6 obtain ⟨_, _, hread⟩ := Option.bind_eq_some_iff.mp hread
    obtain rfl := Option.some.inj hread
    exact hvalidated hrevision
  · intro s event _ hcurrent
    have hstep := eventStep_applyEvent s event
    generalize applyEvent s event = s' at hstep
    cases hstep with
    | ignored | bound | decided | rowsDecided => exact hcurrent
    | revised _ read =>
        simp only [nextRevision, Option.bind_eq_bind, Option.bind_eq_some_iff,
          Option.guard_eq_some'] at read
        obtain ⟨_, _, _, _, _, _, _, _, r, hread, _, _, hr⟩ := read
        obtain rfl := Option.some.inj hr
        exact hvalidated hread

/-- The current revision and the target carry digests. -/
theorem digests_fold {events : List StructuralEvent} {s : EffectStageState}
    (hfold : fold events = some s) :
    isSha256Hex s.currentRevision.proposalDigest = true ∧ isSha256Hex s.targetDigest = true ∧
      1 ≤ s.currentRevision.revision := by
  obtain ⟨hsound, hvalid⟩ := sound_and_valid hfold
  refine ⟨?_, (errors_eq_nil_iff.mp hvalid).1.2.2, ?_⟩
  · obtain ⟨own, hown, hcurrent⟩ := currentRevision_fold hfold
    simp only [EffectStageRevision.ownErrors, List.append_eq_nil_iff, fieldErrors_eq_nil_iff] at hown
    rw [hcurrent]
    exact hown.1.1.1.1.1.1.2 (sha256Hex _) (List.mem_singleton.mpr rfl)
  · rw [hsound.revision_eq_length, EffectStageState.revisions, List.length_append]
    simp

/-- A merge holds every update. -/
theorem updates_mem_mergeRowDecisions {old updates : List EffectRowDecisionState}
    {row : EffectRowDecisionState} (h : row ∈ updates) : row ∈ mergeRowDecisions old updates :=
  (List.mem_insertionSort _).mpr (List.mem_append_right _ h)

theorem readActor_of_valid {p : Payload} {actorKey refKey : String} {a : EffectActorIdentity}
    (hactor : p.string actorKey = some a.actor.value) (href : p.string refKey = some a.principalRef)
    (hvalid : a.errors = []) : readActor p actorKey refKey = some a := by
  unfold readActor
  simp [hactor, href, EffectActor.parse_value, validated, hvalid]

end EffectStageFold

/-! ### What the stager's checks establish -/

/-- A chain of checks that ended well passed its first check and the remaining ones. -/
theorem ok_of_check {ε α : Type} {c : Prop} [Decidable c] {e : ε} {rest : Except ε α} {a : α}
    (h : (if c then .error e else rest) = .ok a) : ¬c ∧ rest = .ok a := by
  split at h
  · cases h
  · next hpassed => exact ⟨hpassed, h⟩

/-- What an admitted decision that has yet to be recorded satisfies. -/
structure DecisionAdmitted (s : EffectStageState) (r : DecideRequest) : Prop where
  revision : r.revision = s.currentRevision.revision
  pins : r.proposalDigest = s.currentRevision.proposalDigest ∧ r.targetDigest = s.targetDigest
  kind : r.decision ≠ .restore
  waiting : EffectStageFold.isOpen s = true
  policy : s.policy ≠ .block
  ready : r.decision = .approve → s.approvalReady = true
  rowKeys : rowKeysFit s r = true
  actor : r.actor.actor = .policy → s.policy = .auto

variable {s : EffectStageState}

theorem pins_of_pinsCurrent {proposalDigest targetDigest : String}
    (h : ¬(!pinsCurrent s proposalDigest targetDigest) = true) :
    proposalDigest = s.currentRevision.proposalDigest ∧ targetDigest = s.targetDigest := by
  simpa [pinsCurrent] using h

theorem decisionAdmitted {r : DecideRequest} (h : admitDecision s r = .ok true) :
    DecisionAdmitted s r := by
  unfold admitDecision at h
  obtain ⟨_, -, h⟩ := bind_eq_ok_iff.mp h
  simp only [bind, Except.bind, throw, throwThe, MonadExceptOf.throw, pure, Except.pure] at h
  obtain ⟨hrevision, h⟩ := ok_of_check h
  obtain ⟨hpins, h⟩ := ok_of_check h
  obtain ⟨hkind, h⟩ := ok_of_check h
  split at h
  · split at h <;> cases h
  · obtain ⟨hwaiting, h⟩ := ok_of_check h
    obtain ⟨hpolicy, h⟩ := ok_of_check h
    obtain ⟨hready, h⟩ := ok_of_check h
    obtain ⟨hrowKeys, h⟩ := ok_of_check h
    obtain ⟨hactor, _⟩ := ok_of_check h
    constructor
    case revision => exact not_not.mp hrevision
    case pins => exact pins_of_pinsCurrent hpins
    case kind => exact hkind
    case waiting => simpa using hwaiting
    case policy => exact hpolicy
    case ready => exact fun happrove => by simpa [happrove] using hready
    case rowKeys => simpa using hrowKeys
    case actor => exact fun hpolicyActor => by simpa [hpolicyActor] using hactor

/-- What admitted row decisions satisfy. -/
structure RowDecisionsAdmitted (s : EffectStageState) (r : RowDecisionsRequest) : Prop where
  rowSet : s.currentRevision.proposalKind = .rowSet
  waiting : EffectStageFold.isOpen s = true
  revision : r.revision = s.currentRevision.revision
  pins : r.proposalDigest = s.currentRevision.proposalDigest ∧ r.targetDigest = s.targetDigest
  named : r.decisions ≠ []
  postures : ∀ d ∈ r.decisions, d.1 ≠ "" ∧ (d.2 = "approve" ∨ d.2 = "hold")

theorem rowDecisionsAdmitted {r : RowDecisionsRequest} (h : admitRowDecisions s r = .ok ()) :
    RowDecisionsAdmitted s r := by
  unfold admitRowDecisions at h
  obtain ⟨_, -, h⟩ := bind_eq_ok_iff.mp h
  simp only [bind, Except.bind, throw, throwThe, MonadExceptOf.throw, pure, Except.pure] at h
  obtain ⟨hwaiting, h⟩ := ok_of_check h
  obtain ⟨hrevision, h⟩ := ok_of_check h
  obtain ⟨hpins, h⟩ := ok_of_check h
  obtain ⟨hdecisions, _⟩ := ok_of_check h
  simp only [not_or, ne_eq, Decidable.not_not, Bool.not_eq_true, Bool.not_eq_false',
    List.isEmpty_eq_false_iff, List.any_eq_false, Bool.or_eq_true, beq_iff_eq] at hwaiting hdecisions
  constructor
  case rowSet => exact hwaiting.1
  case waiting => exact hwaiting.2
  case revision => exact not_not.mp hrevision
  case pins => exact pins_of_pinsCurrent hpins
  case named => exact hdecisions.1
  case postures =>
    intro d hd
    have hposture := hdecisions.2 d hd
    simpa using hposture

/-- What an admitted revision satisfies. -/
structure RevisionAdmitted (s : EffectStageState) (r : ReviseRequest) : Prop where
  revision : r.expectedRevision = s.currentRevision.revision
  live : s.status ≠ .cancelled
  retains : revisionProposalRetainsTarget s r.proposal = true

theorem revisionAdmitted {r : ReviseRequest} (h : admitRevision s r = .ok ()) :
    RevisionAdmitted s r := by
  unfold admitRevision at h
  obtain ⟨_, -, h⟩ := bind_eq_ok_iff.mp h
  simp only [bind, Except.bind, throw, throwThe, MonadExceptOf.throw, pure, Except.pure] at h
  obtain ⟨hrevision, h⟩ := ok_of_check h
  obtain ⟨hlive, h⟩ := ok_of_check h
  obtain ⟨_, h⟩ := ok_of_check h
  obtain ⟨hretains, _⟩ := ok_of_check h
  constructor
  case revision => exact not_not.mp hrevision
  case live => exact hlive
  case retains => simpa using hretains

/-- An admitted binding pins the current revision of a stage without one. -/
theorem bindingAdmitted {r : BindProjectionRequest} (h : admitBinding s r = .ok true) :
    s.projectionBinding = none ∧ r.revision = s.currentRevision.revision ∧
      r.proposalDigest = s.currentRevision.proposalDigest ∧ r.targetDigest = s.targetDigest := by
  unfold admitBinding at h
  obtain ⟨_, -, h⟩ := bind_eq_ok_iff.mp h
  simp only [bind, Except.bind, throw, throwThe, MonadExceptOf.throw, pure, Except.pure] at h
  obtain ⟨_, h⟩ := ok_of_check h
  obtain ⟨_, h⟩ := ok_of_check h
  obtain ⟨hrevision, h⟩ := ok_of_check h
  obtain ⟨hpins, h⟩ := ok_of_check h
  refine ⟨?_, not_not.mp hrevision, pins_of_pinsCurrent hpins⟩
  split at h
  · next hunbound => exact hunbound
  · split at h <;> cases h

/-! ### Reading back what was recorded -/

theorem Payload.texts_map_str (keys : List String) : Payload.texts (keys.map Json.str) = some keys := by
  induction keys with
  | nil => rfl
  | cons key rest ih => simp [Payload.texts, ih]

section ReadBack
variable {sha256 : String → String} {now : String} {event : StructuralEvent}

/-- The decision a request asks for, as recorded by an event. -/
def DecideRequest.recorded (r : DecideRequest) (now ledgerId : String) : EffectStageDecision where
  revision := r.revision
  decision := r.decision
  actor := r.actor
  proposalDigest := r.proposalDigest
  targetDigest := r.targetDigest
  decidedAt := now
  ledgerId := ledgerId
  rowKeys := r.rowKeys

/-- An approval names no row by the empty text. -/
def DecideRequest.Readable (r : DecideRequest) : Prop := "" ∉ r.rowKeys.getD []

instance (r : DecideRequest) : Decidable r.Readable :=
  inferInstanceAs (Decidable ("" ∉ r.rowKeys.getD []))

variable {s : EffectStageState}

theorem rowKeys_admitted {r : DecideRequest} (h : rowKeysFit s r = true) {keys : List String}
    (hkeys : r.rowKeys = some keys) : keys ≠ [] ∧ keys.Nodup := by
  unfold rowKeysFit at h
  rw [hkeys] at h
  cases hkind : r.decision with
  | approve =>
      simp only [hkind, Bool.and_eq_true, beq_iff_eq, Bool.not_eq_true', List.isEmpty_eq_false_iff,
        decide_eq_true_eq] at h
      exact ⟨h.1.2, h.2⟩
  | reject | restore | cancel => simp [hkind] at h

theorem optionalRowKeys_decisionDraft {r : DecideRequest}
    (hkeys : ∀ keys, r.rowKeys = some keys → keys ≠ [] ∧ keys.Nodup) :
    Payload.optionalRowKeys (decisionDraft sha256 r now).payload =
      if r.Readable then some r.rowKeys else none := by
  by_cases hreadable : r.Readable
  · rw [if_pos hreadable]
    cases hrows : r.rowKeys with
    | none => simp [Payload.optionalRowKeys, decisionDraft, hrows, Json.lookup]
    | some keys =>
        obtain ⟨hne, hnodup⟩ := hkeys keys hrows
        have hnamed : "" ∉ keys := by simpa [DecideRequest.Readable, hrows] using hreadable
        simp [Payload.optionalRowKeys, decisionDraft, hrows, Json.lookup, Json.strings,
          Payload.texts_map_str, hne, hnodup, hnamed]
  · rw [if_neg hreadable]
    cases hrows : r.rowKeys with
    | none => simp [DecideRequest.Readable, hrows] at hreadable
    | some keys =>
        have hempty : "" ∈ keys := by simpa [DecideRequest.Readable, hrows] using hreadable
        simp [Payload.optionalRowKeys, decisionDraft, hrows, Json.lookup, Json.strings,
          Payload.texts_map_str, hempty]

/-- An admitted decision is read back, unless it names a row the reader rejects. -/
theorem readDecision_recorded {r : DecideRequest}
    (hpayload : event.payload = (decisionDraft sha256 r now).payload)
    (hactor : r.actor.errors = []) (h : DecisionAdmitted s r)
    (hdigests : isSha256Hex r.proposalDigest = true ∧ isSha256Hex r.targetDigest = true ∧
      1 ≤ r.revision) :
    EffectStageFold.readDecision event =
      if r.Readable then some (r.recorded now event.ledgerId) else none := by
  have hkeys (keys : List String) (hrows : r.rowKeys = some keys) : keys ≠ [] ∧ keys.Nodup :=
    rowKeys_admitted h.rowKeys hrows
  have hread : EffectStageFold.readActor event.payload "actor" "actor_ref" = some r.actor := by
    rw [hpayload]
    exact EffectStageFold.readActor_of_valid rfl rfl hactor
  have hvalid : (r.recorded now event.ledgerId).errors = [] := by
    obtain ⟨hproposal, htarget, hpositive⟩ := hdigests
    cases hrows : r.rowKeys with
    | none =>
        simp [EffectStageDecision.errors, DecideRequest.recorded, sha256Hex, positive, hproposal,
          htarget, hpositive, hrows]
    | some keys =>
        simp [EffectStageDecision.errors, DecideRequest.recorded, sha256Hex, positive, hproposal,
          htarget, hpositive, hrows, uniqueRowKeys, hkeys keys hrows]
  unfold EffectStageFold.readDecision
  dsimp only
  rw [hread, hpayload, optionalRowKeys_decisionDraft hkeys]
  by_cases hreadable : r.Readable
  · simp [decisionDraft, Payload.string, Payload.natural, Payload.versionOk, Json.lookup,
      EffectDecisionKind.parse_value, hreadable]
    exact if_pos hvalid
  · simp [hreadable]

/-- The posture one entry of a request records. -/
def RowDecisionsRequest.row (r : RowDecisionsRequest) (now ledgerId : String)
    (d : String × String) : EffectRowDecisionState where
  rowKey := d.1
  decision := (RowDecision.parse d.2).getD .hold
  actor := r.actor
  decidedAt := now
  ledgerId := ledgerId

/-- Every row key fits the bound of a recorded posture. -/
def RowDecisionsRequest.Readable (r : RowDecisionsRequest) : Prop :=
  ∀ d ∈ r.decisions, d.1.length ≤ 256

instance (r : RowDecisionsRequest) : Decidable r.Readable :=
  inferInstanceAs (Decidable (∀ d ∈ r.decisions, d.1.length ≤ 256))

def rowDecisionJson (d : String × String) : Json :=
  .obj [("row_key", .str d.1), ("decision", .str d.2)]

variable {r : RowDecisionsRequest}

theorem readRowDecision_recorded {ledgerId : String} {seen : List EffectRowDecisionState}
    {d : String × String} (hnew : d.1 ∉ seen.map fun row => row.rowKey) (hnamed : d.1 ≠ "")
    (hposture : d.2 = "approve" ∨ d.2 = "hold") :
    EffectStageFold.readRowDecision r.actor now ledgerId seen (rowDecisionJson d) =
      if d.1.length ≤ 256 then some (seen ++ [r.row now ledgerId d]) else none := by
  obtain ⟨posture, hparse, _⟩ := RowDecision.parse_of_admitted hposture
  have hlength : 1 ≤ d.1.length := by
    by_contra hshort
    exact hnamed (String.length_eq_zero_iff.mp (by omega))
  have hrow : r.row now ledgerId d = ⟨d.1, posture, r.actor, now, ledgerId⟩ := by
    simp [RowDecisionsRequest.row, hparse]
  have herrors : (r.row now ledgerId d).errors = [] ↔ d.1.length ≤ 256 := by
    simp only [EffectRowDecisionState.errors, RowDecisionsRequest.row, fieldErrors_eq_nil_iff,
      List.forall_mem_cons, minLength, maxLength, List.not_mem_nil, false_imp_iff, implies_true,
      and_true]
    exact ⟨fun h => of_decide_eq_true h.2, fun h => ⟨decide_eq_true hlength, decide_eq_true h⟩⟩
  have hcontains : (!(seen.map fun row => row.rowKey).contains d.1) = true := by simpa using hnew
  have hguard : (guard ((!(seen.map fun row => row.rowKey).contains d.1) = true) : Option Unit) =
      some () := if_pos hcontains
  change ((RowDecision.parse d.2).bind fun decision =>
    (guard ((!(seen.map fun row => row.rowKey).contains d.1) = true) : Option Unit).bind fun _ =>
      (validated EffectRowDecisionState.errors ⟨d.1, decision, r.actor, now, ledgerId⟩).bind
        fun row => some (seen ++ [row])) = _
  rw [hparse, Option.bind_some, ← hrow, hguard, Option.bind_some]
  by_cases hfits : d.1.length ≤ 256
  · simp [validated, herrors.mpr hfits, hfits]
  · simp [validated, mt herrors.mp hfits, hfits]

/-- The recorded postures are read back, unless a row key is too long. -/
theorem foldlM_readRowDecision_recorded {ledgerId : String} {decisions : List (String × String)}
    {seen : List EffectRowDecisionState}
    (hkeys : ((seen.map fun row => row.rowKey) ++ decisions.map Prod.fst).Nodup)
    (hpostures : ∀ d ∈ decisions, d.1 ≠ "" ∧ (d.2 = "approve" ∨ d.2 = "hold")) :
    (decisions.map rowDecisionJson).foldlM
        (EffectStageFold.readRowDecision r.actor now ledgerId) seen =
      if ∀ d ∈ decisions, d.1.length ≤ 256 then some (seen ++ decisions.map (r.row now ledgerId))
      else none := by
  induction decisions generalizing seen with
  | nil => simp
  | cons d rest ih =>
      obtain ⟨⟨hnamed, hposture⟩, hothers⟩ := List.forall_mem_cons.mp hpostures
      have hnew : d.1 ∉ seen.map fun row => row.rowKey := by
        intro hmem
        rw [List.map_cons] at hkeys
        exact List.disjoint_of_nodup_append hkeys hmem List.mem_cons_self
      rw [List.map_cons, List.foldlM_cons, readRowDecision_recorded hnew hnamed hposture]
      by_cases hfits : d.1.length ≤ 256
      · rw [if_pos hfits]
        change (rest.map rowDecisionJson).foldlM _ (seen ++ [r.row now ledgerId d]) = _
        rw [ih (by simpa [RowDecisionsRequest.row] using hkeys) hothers]
        simp only [List.forall_mem_cons, hfits, true_and, List.append_assoc, List.map_cons,
          List.singleton_append]
      · have hnone : ¬∀ other ∈ d :: rest, other.1.length ≤ 256 :=
          fun hall => hfits (hall d List.mem_cons_self)
        rw [if_neg hfits, if_neg hnone]
        rfl

/-- Row decisions about the current revision are read item by item. -/
theorem readRowDecisions_eq {actor : EffectActorIdentity}
    {items : List Json} (hversion : Payload.versionOk event.payload = true)
    (hrevision : Payload.natural event.payload "revision" = some s.currentRevision.revision)
    (hproposal : Payload.string event.payload "proposal_digest" =
      some s.currentRevision.proposalDigest)
    (htarget : Payload.string event.payload "target_digest" = some s.targetDigest)
    (hactor : EffectStageFold.readActor event.payload "actor" "actor_ref" = some actor)
    (hdecided : Payload.string event.payload "decided_at" = some now)
    (hitems : Json.lookup event.payload "decisions" = some (.arr items)) (hne : items ≠ []) :
    EffectStageFold.readRowDecisions s event =
      items.foldlM (EffectStageFold.readRowDecision actor now event.ledgerId) [] := by
  simp [EffectStageFold.readRowDecisions, hversion, hrevision, hproposal, htarget, hactor, hdecided,
    hitems, hne]

/-- Admitted row decisions are read back, unless a row key is too long. -/
theorem readRowDecisions_recorded
    (hpayload : event.payload = (rowDecisionsDraft sha256 r now).payload)
    (hactor : r.actor.errors = []) (hkeys : (r.decisions.map Prod.fst).Nodup)
    (h : RowDecisionsAdmitted s r) :
    EffectStageFold.readRowDecisions s event =
      if r.Readable then
        some ((normalizedDecisions r.decisions).map (r.row now event.ledgerId))
      else none := by
  have hperm : (normalizedDecisions r.decisions).Perm r.decisions := List.perm_insertionSort _ _
  have hne : (normalizedDecisions r.decisions).map rowDecisionJson ≠ [] := fun hnil =>
    h.named (List.perm_nil.mp (List.map_eq_nil_iff.mp hnil ▸ hperm.symm))
  have hread : EffectStageFold.readActor event.payload "actor" "actor_ref" = some r.actor := by
    rw [hpayload]
    exact EffectStageFold.readActor_of_valid rfl rfl hactor
  have hitems : EffectStageFold.readRowDecisions s event =
      ((normalizedDecisions r.decisions).map rowDecisionJson).foldlM
        (EffectStageFold.readRowDecision r.actor now event.ledgerId) [] := by
    apply readRowDecisions_eq _ _ _ _ hread _ _ hne
    · rw [hpayload]
      rfl
    · rw [hpayload, ← h.revision]
      simp [rowDecisionsDraft, Payload.natural, Json.lookup]
    · rw [hpayload, ← h.pins.1]
      rfl
    · rw [hpayload, ← h.pins.2]
      rfl
    · rw [hpayload]
      rfl
    · rw [hpayload]
      rfl
  have hreadable : (∀ d ∈ normalizedDecisions r.decisions, d.1.length ≤ 256) ↔ r.Readable :=
    forall_congr' fun d => imp_congr_left hperm.mem_iff
  rw [hitems, foldlM_readRowDecision_recorded
    (by simpa using (hperm.map Prod.fst).nodup_iff.mpr hkeys)
    (fun d hd => h.postures d (hperm.mem_iff.mp hd))]
  simp only [hreadable, List.nil_append]

/-- The revision a request asks for. -/
def ReviseRequest.recorded (r : ReviseRequest) (proposalRef now : String) :
    EffectStageRevision where
  revision := r.expectedRevision + 1
  proposalKind := r.proposal.proposalKind
  proposalRef := proposalRef
  proposalContentRef := some r.proposal.proposalContentRef
  proposalDigest := r.proposal.proposalDigest
  proposalMediaType := r.proposal.proposalMediaType
  targetRef := r.proposal.targetRef
  targetDigest := r.proposal.targetDigest
  displayTarget := r.proposal.displayTarget
  preconditionRef := r.proposal.preconditionRef
  preconditionDigest := r.proposal.preconditionDigest
  safeDiffRef := r.proposal.safeDiffRef
  author := r.actor
  createdAt := now

variable {proposalRef : String}

/-- A revision of an admitted proposal passes its own validator unchanged. -/
theorem modelValidate_recorded {r : ReviseRequest} (hvalid : r.proposal.Valid)
    (href : (ProposalUriCodec.parse proposalRef).isSome) :
    (r.recorded proposalRef now).modelValidate = some (r.recorded proposalRef now) := by
  obtain ⟨hown, hpair, hlower⟩ := hvalid.errors
  simp only [EffectRevisionProposal.ownErrors, List.append_eq_nil_iff, fieldErrors_eq_nil_iff,
    List.forall_mem_singleton] at hown
  obtain ⟨⟨⟨⟨⟨⟨⟨⟨hcontent, hdigest⟩, hmedia⟩, htarget⟩, htargetDigest⟩, _⟩, hprecondition⟩,
    hpreconditionDigest⟩, hdiff⟩ := hown
  have hnone : (r.recorded proposalRef now).ownErrors = [] := by
    simp only [EffectStageRevision.ownErrors, List.append_eq_nil_iff, fieldErrors_eq_nil_iff,
      List.forall_mem_singleton, ReviseRequest.recorded, optionalChecks_some]
    have hpositive : (positive (r.expectedRevision + 1)).holds = true :=
      decide_eq_true (Nat.le_add_left 1 r.expectedRevision)
    exact ⟨⟨⟨⟨⟨⟨⟨⟨⟨hpositive, href⟩, hcontent⟩, hdigest⟩, hmedia⟩, htarget⟩, htargetDigest⟩,
      hprecondition⟩, hpreconditionDigest⟩, hdiff⟩
  have herrors : (r.recorded proposalRef now).errors = [] := by
    rw [EffectStageRevision.errors, hnone]
    exact (fieldErrors_eq_nil_iff _ _).mpr (List.forall_mem_singleton.mpr hpair)
  rw [EffectStageRevision.modelValidate, if_pos herrors]
  exact congrArg some (by simp only [ReviseRequest.recorded, hlower])

theorem optionalString_ofOption {p : Payload} {key : String} {value : Option String}
    (h : Json.lookup p key = some (Json.ofOption value)) :
    Payload.optionalString p key = some value := by
  unfold Payload.optionalString
  cases value <;> simp [h, Json.ofOption]

theorem natural_of_lookup {p : Payload} {key : String} {n : Nat}
    (h : Json.lookup p key = some (.int n)) : Payload.natural p key = some n := by
  simp [Payload.natural, h]

/-- Both references of a recorded revision are read back as they were written. -/
theorem normaliseProposalReferences_recorded {r : ReviseRequest}
    (hpayload : event.payload = (revisionDraft sha256 r proposalRef now).payload)
    (hformat : ProposalUriCodec.format r.stageId (r.expectedRevision + 1) = some proposalRef) :
    EffectStageFold.normaliseProposalReferences event.payload r.stageId (r.expectedRevision + 1) =
      some (proposalRef, some r.proposal.proposalContentRef) := by
  have href : Payload.string event.payload "proposal_ref" = some proposalRef := by
    rw [hpayload]
    rfl
  have hcontent : Payload.optionalString event.payload "proposal_content_ref" =
      some (some r.proposal.proposalContentRef) := by
    rw [hpayload]
    rfl
  simp [EffectStageFold.normaliseProposalReferences, href, hcontent, hformat,
    ProposalUriCodec.parse_format hformat]

/-- An admitted revision is read back as the stage's next revision. -/
theorem nextRevision_recorded {r : ReviseRequest}
    (hpayload : event.payload = (revisionDraft sha256 r proposalRef now).payload)
    (hstage : s.stageId = r.stageId) (hactor : r.actor.errors = []) (hvalid : r.proposal.Valid)
    (hformat : ProposalUriCodec.format r.stageId (r.expectedRevision + 1) = some proposalRef)
    (h : RevisionAdmitted s r) :
    EffectStageFold.nextRevision s event = some (r.recorded proposalRef now) := by
  have hauthor : EffectStageFold.readActor event.payload "author_actor" "author_ref" =
      some r.actor := by
    rw [hpayload]
    exact EffectStageFold.readActor_of_valid rfl rfl hactor
  have hread : EffectStageFold.readRevision event.payload r.stageId (r.expectedRevision + 1)
      r.proposal.safeDiffRef = some (r.recorded proposalRef now) := by
    have hkind : Payload.string event.payload "proposal_kind" =
        some r.proposal.proposalKind.value := by rw [hpayload]; rfl
    have hdigest : Payload.string event.payload "proposal_digest" =
        some r.proposal.proposalDigest := by rw [hpayload]; rfl
    have hmedia : Payload.string event.payload "proposal_media_type" =
        some r.proposal.proposalMediaType := by rw [hpayload]; rfl
    have htarget : Payload.string event.payload "target_ref" = some r.proposal.targetRef := by
      rw [hpayload]; rfl
    have htargetDigest : Payload.string event.payload "target_digest" =
        some r.proposal.targetDigest := by rw [hpayload]; rfl
    have hdisplay : Payload.string event.payload "display_target" =
        some r.proposal.displayTarget := by rw [hpayload]; rfl
    have hprecondition : Payload.optionalString event.payload "precondition_ref" =
        some r.proposal.preconditionRef := optionalString_ofOption (by rw [hpayload]; rfl)
    have hpreconditionDigest : Payload.optionalString event.payload "precondition_digest" =
        some r.proposal.preconditionDigest := optionalString_ofOption (by rw [hpayload]; rfl)
    have hcreated : Payload.string event.payload "created_at" = some now := by rw [hpayload]; rfl
    have hparse : (ProposalUriCodec.parse proposalRef).isSome := by
      rw [ProposalUriCodec.parse_format hformat]
      rfl
    simp only [EffectStageFold.readRevision, normaliseProposalReferences_recorded hpayload hformat,
      hkind, EffectProposalKind.parse_value, hdigest, hmedia, htarget, htargetDigest, hdisplay,
      hprecondition, hpreconditionDigest, hauthor, hcreated, Option.bind_eq_bind,
      Option.bind_some]
    exact modelValidate_recorded hvalid hparse
  have hretains : EffectStageFold.revisionRetainsTarget s (r.recorded proposalRef now) = true :=
    h.retains
  have hrevision : Payload.natural event.payload "revision" = some (r.expectedRevision + 1) :=
    natural_of_lookup (by rw [hpayload]; rfl)
  have hversion : Payload.versionOk event.payload = true := by rw [hpayload]; rfl
  have hdiff : Payload.optionalString event.payload "safe_diff_ref" = some r.proposal.safeDiffRef :=
    optionalString_ofOption (by rw [hpayload]; rfl)
  simp [EffectStageFold.nextRevision, hversion, hrevision, ← h.revision, hdiff, hstage, hread,
    hretains]

/-- A binding that is read back is the requested one. -/
theorem readBinding_recorded {r : BindProjectionRequest} {b : EffectProjectionBinding}
    (hpayload : event.payload = (bindingDraft sha256 r now).payload)
    (h : EffectStageFold.readBinding event = some b) :
    b = ⟨r.revision, r.projectionRef, r.proposalDigest, r.targetDigest, now, event.ledgerId⟩ := by
  have hrevision : Payload.natural event.payload "revision" = some r.revision :=
    natural_of_lookup (by rw [hpayload]; rfl)
  have hprojection : Payload.string event.payload "projection_ref" = some r.projectionRef := by
    rw [hpayload]; rfl
  have hproposal : Payload.string event.payload "proposal_digest" = some r.proposalDigest := by
    rw [hpayload]; rfl
  have htarget : Payload.string event.payload "target_digest" = some r.targetDigest := by
    rw [hpayload]; rfl
  have hbound : Payload.string event.payload "bound_at" = some now := by rw [hpayload]; rfl
  simp only [EffectStageFold.readBinding, hrevision, hprojection, hproposal, htarget, hbound,
    Option.bind_eq_bind, Option.bind_some, Option.bind_eq_some_iff] at h
  obtain ⟨_, _, hvalid⟩ := h
  exact (validated_eq_some hvalid).1.symm

end ReadBack

end CopilotRuntime.Effects
