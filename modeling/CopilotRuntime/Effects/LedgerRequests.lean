import CopilotRuntime.Effects.EffectLedger
import CopilotRuntime.Effects.RecordedEvents

/-!
# Which built events the ledger admits

The stager's request models and the ledger's payload models check much the
same fields, but not in the same way. Each request has here the list of the
checks that only the ledger makes; if they pass, the payload of the event the
stager builds is admitted.
-/

namespace CopilotRuntime.Effects

open Foundation EffectStageFold

/-! ### Requests and the checks that only the ledger makes -/

namespace ProposedEffect

def ownErrors (p : ProposedEffect) : List FieldError :=
  fieldErrors "operation_id"
    [⟨(OperationIdCodec.parse p.operationId).isSome, uuidPatternMessage "op_"⟩] ++
  fieldErrors "target_digest" [sha256Hex p.targetDigest] ++
  fieldErrors "display_target"
    [⟨!(Text.strip p.displayTarget).isEmpty && p.displayTarget.length ≤ textMaxLength,
        "display_target must be a short non-empty safe label"⟩,
      ⟨!Text.hasChar p.displayTarget '\n' && !Text.hasChar p.displayTarget '\r',
        "display_target must not contain a body or path"⟩] ++
  fieldErrors "proposal_content_ref" [immutableContentRefCheck p.proposalContentRef] ++
  fieldErrors "proposal_digest" [sha256Hex p.proposalDigest] ++
  fieldErrors "proposal_media_type" [mediaTypeCheck p.proposalMediaType] ++
  fieldErrors "precondition_digest"
    (optionalChecks p.preconditionDigest fun digest => [sha256Hex digest]) ++
  fieldErrors "policy_snapshot_ref" [safeReferenceCheck "reference" p.policySnapshotRef] ++
  fieldErrors "safe_summary_ref" (optionalSafeReference p.safeSummaryRef)

/-- The checks across the fields of a proposal. -/
def consistencyChecks (p : ProposedEffect) : List Check :=
  [⟨p.target.executor == p.executor, "target executor must match proposal executor"⟩,
    ⟨p.target.displayLabel == p.displayTarget, "display_target must match target display_label"⟩,
    refDigestPair "precondition" p.preconditionRef p.preconditionDigest,
    ⟨proposalExecutorPair p.proposalKind p.executor,
      "proposal kind is incompatible with executor"⟩]

def errors (p : ProposedEffect) : List FieldError :=
  match p.ownErrors with
  | [] => fieldErrors "" p.consistencyChecks
  | found => found

/-- Validate a proposal; media types are stored in lower case. -/
def modelValidate (p : ProposedEffect) : Option ProposedEffect :=
  if p.errors = [] then some { p with proposalMediaType := Text.lower p.proposalMediaType }
  else none

/-- An instance of the model: validating it again gives it back. -/
def Valid (p : ProposedEffect) : Prop := p.modelValidate = some p

instance (p : ProposedEffect) : Decidable p.Valid := decEq p.modelValidate (some p)

theorem Valid.ownErrors {p : ProposedEffect} (h : p.Valid) : p.ownErrors = [] := by
  unfold Valid modelValidate at h
  split at h
  · next hnone =>
      unfold ProposedEffect.errors at hnone
      split at hnone
      · next hown => exact hown
      · next hfound => exact (hfound hnone).elim
  · cases h

end ProposedEffect

def boundedChecks (limit : Nat) (s : String) : List Check := [minLength 1 s, maxLength limit s]

def metadataRefCheck (ref : String) : Check := opaqueUriCheck "effect metadata reference" ref

def optionalMetadataRef (ref : Option String) : List Check :=
  optionalChecks ref fun value => [metadataRefCheck value]

def StageRequest.ledgerErrors (r : StageRequest) (now : String) : List FieldError :=
  let p := r.proposedEffect
  fieldErrors "capability" (boundedChecks 128 p.target.capability) ++
  fieldErrors "op" (boundedChecks 128 p.target.op) ++
  fieldErrors "precondition_ref" (optionalMetadataRef p.preconditionRef) ++
  fieldErrors "policy_snapshot_ref" [metadataRefCheck p.policySnapshotRef] ++
  fieldErrors "safe_summary_ref" (optionalMetadataRef p.safeSummaryRef) ++
  fieldErrors "owner_ref" [metadataRefCheck r.scope.ownerRef] ++
  fieldErrors "author_ref" [metadataRefCheck r.actor.principalRef] ++
  fieldErrors "created_at" (boundedChecks 128 now) ++
  fieldErrors ""
    [⟨opaqueSafeUri p.target.targetRef, "target_ref must be an opaque non-file URI reference"⟩,
      ⟨p.executor != .workspace || (WorkspaceTargetRefCodec.parse p.target.targetRef).isSome,
        "not a valid workspace target reference"⟩]

def ReviseRequest.ledgerErrors (r : ReviseRequest) (now : String) : List FieldError :=
  fieldErrors "target_ref" [metadataRefCheck r.proposal.targetRef] ++
  fieldErrors "precondition_ref" (optionalMetadataRef r.proposal.preconditionRef) ++
  fieldErrors "safe_diff_ref" (optionalMetadataRef r.proposal.safeDiffRef) ++
  fieldErrors "author_ref" [metadataRefCheck r.actor.principalRef] ++
  fieldErrors "created_at" (boundedChecks 128 now)

def BindProjectionRequest.ledgerErrors (r : BindProjectionRequest) (now : String) :
    List FieldError :=
  fieldErrors "projection_ref" [opaqueUriCheck "projection_ref" r.projectionRef] ++
  fieldErrors "bound_at" (boundedChecks 128 now)

def DecideRequest.ledgerErrors (r : DecideRequest) (now : String) : List FieldError :=
  fieldErrors "actor_ref" [opaqueUriCheck "actor_ref" r.actor.principalRef] ++
  fieldErrors "decided_at" (boundedChecks 128 now) ++
  fieldErrors "row_keys" (optionalChecks r.rowKeys fun keys => keys.flatMap (boundedChecks 256))

/-! ### One field of a payload -/

namespace PayloadModel
variable {p : Payload} {field : PayloadField}

theorem fieldChecks_of_present {value : Json} (h : p.present field.name = some value)
    (hchecks : ∀ check ∈ field.checks value, check.holds = true) :
    ∀ check ∈ fieldChecks p field, check.holds = true := by
  rw [fieldChecks, h]
  exact hchecks

theorem fieldChecks_of_absent (h : p.present field.name = none) (hoptional : field.required = false) :
    ∀ check ∈ fieldChecks p field, check.holds = true := by
  rw [fieldChecks, h]
  simpa using hoptional

/-- An optional text is fine when it is absent or passes the checks of its field. -/
theorem fieldChecks_of_optional {value : Option String}
    (h : Json.lookup p field.name = some (Json.ofOption value)) (hoptional : field.required = false)
    (hchecks : ∀ check ∈ optionalChecks value fun s => field.checks (.str s),
      check.holds = true) :
    ∀ check ∈ fieldChecks p field, check.holds = true := by
  cases value with
  | none => exact fieldChecks_of_absent (by simp [Payload.present, h, Json.ofOption]) hoptional
  | some s =>
      exact fieldChecks_of_present (by simp [Payload.present, h, Json.ofOption]) hchecks

/-- A text of a vocabulary passes the check of its field. -/
theorem oneOf_holds {values : List String} {s : String} (h : s ∈ values) :
    ∀ check ∈ oneOf values (.str s), check.holds = true :=
  List.forall_mem_singleton.mpr (List.elem_eq_true_of_mem h)

theorem mem_names_of_all {m : PayloadModel}
    (h : (p.map Prod.fst).all (fun name => m.names.contains name) = true) :
    ∀ field ∈ p, field.1 ∈ m.names := by
  intro field hfield
  have hname := List.all_eq_true.mp h field.1 (List.mem_map_of_mem hfield)
  simpa using hname

theorem versionField_holds : ∀ check ∈ versionField (.int 1), check.holds = true := by decide

theorem safePositiveInt_holds {n : Nat} (hpos : 1 ≤ n) (hle : n ≤ maxSafeInteger) :
    ∀ check ∈ safePositiveInt (.int n), check.holds = true := by
  have hlower : (1 : Int) ≤ n := by omega
  have hupper : (n : Int) ≤ maxSafeInteger := by omega
  exact List.forall_mem_cons.mpr
    ⟨decide_eq_true hlower, List.forall_mem_singleton.mpr (decide_eq_true hupper)⟩

end PayloadModel

/-! ### What the request models and the fold establish -/

theorem length_pos_of_not_blank {s : String} (h : (Text.strip s).isEmpty = false) : 1 ≤ s.length := by
  by_contra hshort
  have hempty : s = "" := String.length_eq_zero_iff.mp (by omega)
  subst hempty
  revert h
  decide

theorem stageId_of_format {stageId reference : String} {revision : Nat}
    (h : ProposalUriCodec.format stageId revision = some reference) :
    (EffectStageIdCodec.parse stageId).isSome = true ∧ 1 ≤ revision ∧ revision ≤ maxSafeInteger := by
  unfold ProposalUriCodec.format at h
  split at h
  · next hvalid =>
      simp only [Bool.and_eq_true, decide_eq_true_eq] at hvalid
      exact ⟨hvalid.1.1, hvalid.1.2, hvalid.2⟩
  · cases h

theorem revision_le_of_parse {text : String} {ref : ParsedProposalRef}
    (h : ProposalUriCodec.parse text = some ref) : ref.revision ≤ maxSafeInteger := by
  unfold ProposalUriCodec.parse at h
  split at h
  · split at h
    · obtain ⟨n, hn, rfl⟩ := Option.map_eq_some_iff.mp h
      unfold parseRevision at hn
      split at hn
      · split at hn
        · next hbounds =>
            obtain rfl := Option.some.inj hn
            simp only [Bool.and_eq_true, decide_eq_true_eq] at hbounds
            exact hbounds.2
        · cases hn
      · cases hn
    · cases h
  · cases h

/-- A folded stage has a canonical id and a safe current revision. -/
theorem bounds_fold {events : List StructuralEvent} {s : EffectStageState}
    (hfold : fold events = some s) :
    (EffectStageIdCodec.parse s.stageId).isSome = true ∧
      s.currentRevision.revision ≤ maxSafeInteger := by
  obtain ⟨⟨hstage, _⟩, hchecks⟩ := errors_eq_nil_iff.mp (sound_and_valid hfold).2
  refine ⟨hstage, ?_⟩
  have hcurrent : s.currentRevision ∈ s.revisions :=
    List.mem_append_right _ (List.mem_singleton.mpr rfl)
  have hparse : ProposalUriCodec.parse s.currentRevision.proposalRef =
      some ⟨s.stageId, s.currentRevision.revision⟩ := by
    have hcheck := hchecks ⟨ProposalUriCodec.parse s.currentRevision.proposalRef ==
      some ⟨s.stageId, s.currentRevision.revision⟩,
      "proposal_ref must identify its owning stage and revision"⟩
      (List.mem_append_left _ (List.mem_flatMap.mpr ⟨_, hcurrent, by simp⟩))
    exact beq_iff_eq.mp hcheck
  exact revision_le_of_parse hparse

/-! ### The drafts of admitted requests -/

theorem EffectExecutorKind.value_mem (k : EffectExecutorKind) :
    k.value ∈ ["mcp", "workspace", "browser", "sandbox", "builtin"] := by
  cases k <;> simp [value]

theorem EffectActor.value_mem (a : EffectActor) : a.value ∈ effectActors := by
  cases a <;> simp [value, effectActors]

theorem EffectProposalKind.value_mem (k : EffectProposalKind) : k.value ∈ effectProposalKinds := by
  cases k <;> simp [value, effectProposalKinds]

theorem contentRefField_holds {ref : String} (h : immutableContentRef ref = true) :
    ∀ check ∈ contentRefField (.str ref), check.holds = true := by
  rw [immutableContentRef_eq, Bool.and_eq_true] at h
  exact List.forall_mem_cons.mpr ⟨h.1, List.forall_mem_singleton.mpr h.2⟩

theorem displayTarget_bounded {s : String}
    (h : (!(Text.strip s).isEmpty && Decidable.decide (s.length ≤ textMaxLength)) = true) :
    ∀ check ∈ boundedChecks 512 s, check.holds = true := by
  simp only [Bool.and_eq_true, Bool.not_eq_true', decide_eq_true_eq] at h
  exact List.forall_mem_cons.mpr ⟨decide_eq_true (length_pos_of_not_blank h.1),
    List.forall_mem_singleton.mpr (decide_eq_true h.2)⟩

/-- A formatted proposal reference names its stage and revision. -/
theorem proposalRefChecks_hold {value : String → Option Json} {stageId reference message : String}
    {revision : Nat} {found : Option Nat} (href : textOf value "proposal_ref" = some reference)
    (hstage : textOf value "stage_id" = some stageId) (hrevision : found = some revision)
    (hformat : ProposalUriCodec.format stageId revision = some reference) :
    ∀ check ∈ proposalRefChecks value found message, check.holds = true := by
  have hparse := ProposalUriCodec.parse_format hformat
  unfold proposalRefChecks
  simp [href, hstage, hrevision, hparse]

section Drafts
open PayloadModel
variable {sha256 : String → String} {now : String}

/-- The staging event of a fitting request is admitted. -/
theorem errors_stagedPayload {r : StageRequest} {stageId proposalRef : String} {policy : EffectPolicy}
    (hvalid : r.proposedEffect.Valid) (hfits : r.ledgerErrors now = [])
    (hformat : ProposalUriCodec.format stageId 1 = some proposalRef) :
    effectStagedPayload.errors (stagedPayload r stageId proposalRef policy.value now) = [] := by
  have hown := hvalid.ownErrors
  simp only [ProposedEffect.ownErrors, StageRequest.ledgerErrors, List.append_eq_nil_iff,
    fieldErrors_eq_nil_iff, List.forall_mem_cons, List.not_mem_nil, false_imp_iff, implies_true,
    and_true] at hown hfits
  obtain ⟨⟨⟨⟨⟨⟨⟨⟨hoperation, htargetDigest⟩, hdisplay, _⟩, hcontent⟩, hdigest⟩, hmedia⟩,
    hpreconditionDigest⟩, _⟩, _⟩ := hown
  obtain ⟨⟨⟨⟨⟨⟨⟨⟨hcapability, hop⟩, hprecondition⟩, hsnapshot⟩, hsummary⟩, howner⟩, hauthor⟩, hnow⟩,
    htarget, hworkspace⟩ := hfits
  have hdisplayed : ∀ check ∈ boundedChecks 512 r.proposedEffect.displayTarget,
      check.holds = true := displayTarget_bounded hdisplay
  refine PayloadModel.errors_eq_nil_iff.mpr ⟨?_, mem_names_of_all rfl, ?_⟩
  · simp only [effectStagedPayload, ledgerPayload, List.forall_mem_cons, List.not_mem_nil,
      false_imp_iff, implies_true, and_true]
    refine ⟨?_, ?_, ?_, ?_, ?_, ?_, ?_, ?_, ?_, ?_, ?_, ?_, ?_, ?_, ?_, ?_, ?_, ?_, ?_, ?_, ?_, ?_,
      ?_, ?_, ?_, ?_, ?_⟩
    · exact fieldChecks_of_present rfl versionField_holds
    · exact fieldChecks_of_absent rfl rfl
    · exact fieldChecks_of_present rfl (List.forall_mem_singleton.mpr (stageId_of_format hformat).1)
    · exact fieldChecks_of_present rfl (List.forall_mem_singleton.mpr hoperation)
    · exact fieldChecks_of_present rfl (oneOf_holds (EffectExecutorKind.value_mem _))
    · exact fieldChecks_of_present rfl (by simp [textField])
    · exact fieldChecks_of_present rfl (List.forall_mem_singleton.mpr htargetDigest)
    · exact fieldChecks_of_present rfl (by simp [textField])
    · exact fieldChecks_of_present rfl (List.forall_mem_singleton.mpr hdigest)
    · exact fieldChecks_of_present rfl (oneOf_holds (by cases policy <;> simp [EffectPolicy.value]))
    · exact fieldChecks_of_present rfl hcapability
    · exact fieldChecks_of_present rfl hop
    · exact fieldChecks_of_present rfl hdisplayed
    · exact fieldChecks_of_present rfl (oneOf_holds (EffectProposalKind.value_mem _))
    · exact fieldChecks_of_present rfl (contentRefField_holds hcontent)
    · exact fieldChecks_of_present rfl (List.forall_mem_singleton.mpr hmedia)
    · exact fieldChecks_of_optional rfl rfl hprecondition
    · exact fieldChecks_of_optional rfl rfl hpreconditionDigest
    · exact fieldChecks_of_present rfl
        (oneOf_holds (by cases r.proposedEffect.effectClass <;> simp [EffectClass.value]))
    · exact fieldChecks_of_present rfl (List.forall_mem_singleton.mpr hsnapshot)
    · exact fieldChecks_of_present rfl (by simp [booleanField])
    · exact fieldChecks_of_optional rfl rfl hsummary
    · exact fieldChecks_of_present rfl (by simp [booleanField])
    · exact fieldChecks_of_present rfl (List.forall_mem_singleton.mpr howner)
    · exact fieldChecks_of_present rfl (oneOf_holds (EffectActor.value_mem _))
    · exact fieldChecks_of_present rfl (List.forall_mem_singleton.mpr hauthor)
    · exact fieldChecks_of_present rfl hnow
  · refine List.forall_mem_append.mpr ⟨?_, proposalRefChecks_hold rfl rfl rfl hformat⟩
    refine List.forall_mem_cons.mpr ⟨htarget, List.forall_mem_singleton.mpr ?_⟩
    change (some r.proposedEffect.executor.value != some "workspace" ||
      (WorkspaceTargetRefCodec.parse r.proposedEffect.target.targetRef).isSome) = true
    cases hexecutor : r.proposedEffect.executor with
    | workspace => simpa [hexecutor, EffectExecutorKind.value] using hworkspace
    | mcp | browser | sandbox | builtin => rfl

/-- The revision event of a fitting request is admitted. -/
theorem errors_revisionDraft {r : ReviseRequest} {proposalRef : String} (hvalid : r.proposal.Valid)
    (hfits : r.ledgerErrors now = [])
    (hformat : ProposalUriCodec.format r.stageId (r.expectedRevision + 1) = some proposalRef) :
    effectRevisedPayload.errors (revisionDraft sha256 r proposalRef now).payload = [] := by
  have hown := hvalid.errors.1
  simp only [EffectRevisionProposal.ownErrors, ReviseRequest.ledgerErrors, List.append_eq_nil_iff,
    fieldErrors_eq_nil_iff, List.forall_mem_cons, List.not_mem_nil, false_imp_iff, implies_true,
    and_true] at hown hfits
  obtain ⟨⟨⟨⟨⟨⟨⟨⟨hcontent, hdigest⟩, hmedia⟩, _⟩, htargetDigest⟩, hdisplay, _⟩, _⟩,
    hpreconditionDigest⟩, _⟩ := hown
  obtain ⟨⟨⟨⟨htarget, hprecondition⟩, hdiff⟩, hauthor⟩, hnow⟩ := hfits
  obtain ⟨hstage, hpos, hle⟩ := stageId_of_format hformat
  refine PayloadModel.errors_eq_nil_iff.mpr ⟨?_, mem_names_of_all rfl, ?_⟩
  · simp only [effectRevisedPayload, ledgerPayload, List.forall_mem_cons, List.not_mem_nil,
      false_imp_iff, implies_true, and_true]
    refine ⟨?_, ?_, ?_, ?_, ?_, ?_, ?_, ?_, ?_, ?_, ?_, ?_, ?_, ?_, ?_, ?_, ?_, ?_, ?_⟩
    · exact fieldChecks_of_present rfl versionField_holds
    · exact fieldChecks_of_absent rfl rfl
    · exact fieldChecks_of_present rfl (List.forall_mem_singleton.mpr hstage)
    · exact fieldChecks_of_present rfl (safePositiveInt_holds hpos hle)
    · exact fieldChecks_of_present rfl (by simp [textField])
    · exact fieldChecks_of_present rfl (List.forall_mem_singleton.mpr hdigest)
    · exact fieldChecks_of_absent rfl rfl
    · exact fieldChecks_of_present rfl (oneOf_holds (EffectProposalKind.value_mem _))
    · exact fieldChecks_of_present rfl (contentRefField_holds hcontent)
    · exact fieldChecks_of_present rfl (List.forall_mem_singleton.mpr hmedia)
    · exact fieldChecks_of_present rfl (List.forall_mem_singleton.mpr htarget)
    · exact fieldChecks_of_present rfl (List.forall_mem_singleton.mpr htargetDigest)
    · exact fieldChecks_of_present rfl (displayTarget_bounded hdisplay)
    · exact fieldChecks_of_optional rfl rfl hprecondition
    · exact fieldChecks_of_optional rfl rfl hpreconditionDigest
    · exact fieldChecks_of_optional rfl rfl hdiff
    · exact fieldChecks_of_present rfl (oneOf_holds (EffectActor.value_mem _))
    · exact fieldChecks_of_present rfl (List.forall_mem_singleton.mpr hauthor)
    · exact fieldChecks_of_present rfl hnow
  · exact proposalRefChecks_hold rfl rfl rfl hformat

/-- The binding event of a fitting request is admitted. -/
theorem errors_bindingDraft {r : BindProjectionRequest} (hfits : r.ledgerErrors now = [])
    (hstage : (EffectStageIdCodec.parse r.stageId).isSome = true) (hpos : 1 ≤ r.revision)
    (hle : r.revision ≤ maxSafeInteger) (hdigest : isSha256Hex r.proposalDigest = true)
    (htargetDigest : isSha256Hex r.targetDigest = true) :
    effectProjectionBoundPayload.errors (bindingDraft sha256 r now).payload = [] := by
  simp only [BindProjectionRequest.ledgerErrors, List.append_eq_nil_iff, fieldErrors_eq_nil_iff,
    List.forall_mem_cons, List.not_mem_nil, false_imp_iff, implies_true, and_true] at hfits
  refine PayloadModel.errors_eq_nil_iff.mpr ⟨?_, mem_names_of_all rfl, by
    simp [effectProjectionBoundPayload]⟩
  simp only [effectProjectionBoundPayload, ledgerPayload, List.forall_mem_cons, List.not_mem_nil,
    false_imp_iff, implies_true, and_true]
  refine ⟨?_, ?_, ?_, ?_, ?_, ?_, ?_, ?_⟩
  · exact fieldChecks_of_present rfl versionField_holds
  · exact fieldChecks_of_absent rfl rfl
  · exact fieldChecks_of_present rfl (List.forall_mem_singleton.mpr hstage)
  · exact fieldChecks_of_present rfl (safePositiveInt_holds hpos hle)
  · exact fieldChecks_of_present rfl (List.forall_mem_singleton.mpr hfits.1)
  · exact fieldChecks_of_present rfl (List.forall_mem_singleton.mpr hdigest)
  · exact fieldChecks_of_present rfl (List.forall_mem_singleton.mpr htargetDigest)
  · exact fieldChecks_of_present rfl hfits.2

theorem rowKeysField_holds {keys : List String}
    (hbounded : ∀ check ∈ keys.flatMap (boundedChecks 256), check.holds = true)
    (hne : keys ≠ []) (hnodup : keys.Nodup) :
    ∀ check ∈ rowKeysField (Json.strings keys), check.holds = true := by
  refine List.forall_mem_append.mpr ⟨?_, List.forall_mem_singleton.mpr ?_⟩
  · rw [List.flatMap_map]
    exact hbounded
  · simp [Payload.texts_map_str, hne, hnodup]

/-- The decision event of a fitting request is admitted. -/
theorem errors_decisionDraft {r : DecideRequest} (hfits : r.ledgerErrors now = [])
    (hstage : (EffectStageIdCodec.parse r.stageId).isSome = true) (hpos : 1 ≤ r.revision)
    (hle : r.revision ≤ maxSafeInteger) (hdigest : isSha256Hex r.proposalDigest = true)
    (htargetDigest : isSha256Hex r.targetDigest = true)
    (hkeys : ∀ keys, r.rowKeys = some keys → keys ≠ [] ∧ keys.Nodup) :
    effectDecisionRecordedPayload.errors (decisionDraft sha256 r now).payload = [] := by
  obtain ⟨scope, stageId, revision, decision, digest, target, actor, key, rowKeys, governed⟩ := r
  simp only [DecideRequest.ledgerErrors, List.append_eq_nil_iff, fieldErrors_eq_nil_iff,
    List.forall_mem_cons, List.not_mem_nil, false_imp_iff, implies_true, and_true] at hfits
  obtain ⟨⟨hactor, hnow⟩, hbounded⟩ := hfits
  refine PayloadModel.errors_eq_nil_iff.mpr ⟨?_, ?_, by simp [effectDecisionRecordedPayload]⟩
  · simp only [effectDecisionRecordedPayload, ledgerPayload, List.forall_mem_cons, List.not_mem_nil,
      false_imp_iff, implies_true, and_true]
    refine ⟨?_, ?_, ?_, ?_, ?_, ?_, ?_, ?_, ?_, ?_, ?_⟩
    · exact fieldChecks_of_present rfl versionField_holds
    · cases rowKeys <;> exact fieldChecks_of_absent rfl rfl
    · exact fieldChecks_of_present rfl (List.forall_mem_singleton.mpr hstage)
    · exact fieldChecks_of_present rfl (safePositiveInt_holds hpos hle)
    · exact fieldChecks_of_present rfl
        (oneOf_holds (by cases decision <;> simp [EffectDecisionKind.value]))
    · exact fieldChecks_of_present rfl (oneOf_holds (EffectActor.value_mem _))
    · exact fieldChecks_of_present rfl (List.forall_mem_singleton.mpr hdigest)
    · exact fieldChecks_of_present rfl (List.forall_mem_singleton.mpr htargetDigest)
    · exact fieldChecks_of_present rfl (List.forall_mem_singleton.mpr hactor)
    · exact fieldChecks_of_present rfl hnow
    · cases rowKeys with
      | none => exact fieldChecks_of_absent rfl rfl
      | some keys =>
          obtain ⟨hne, hnodup⟩ := hkeys keys rfl
          exact fieldChecks_of_present rfl (rowKeysField_holds hbounded hne hnodup)
  · cases rowKeys <;> exact mem_names_of_all rfl

end Drafts

end CopilotRuntime.Effects
