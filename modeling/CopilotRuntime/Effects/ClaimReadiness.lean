import CopilotRuntime.Effects.LosslessLedger
import CopilotRuntime.Effects.References
import Mathlib.Data.List.Infix

/-!
# Claims of approved effects

Whatever the run-bound ledger has admitted as a stage, and a user approved, a
claim can be built for, with one exception: a content reference may spell the
scheme of proposal identities so that only splitting the URL shows it. The
ledger stores such a reference, and the claim refuses it.

## Implementation notes

The events of a stream are those its effect ledgers admit, and events of types
that no stage is folded from.
-/

namespace CopilotRuntime.Effects

open Foundation EffectStageFold RuntimeEffectLedger

/-! ### What a folded stage holds of its events -/

variable {events : List StructuralEvent}

/-- The content reference of the current revision locates immutable content. -/
theorem contentRef_fold {s : EffectStageState} (hfold : fold events = some s) {ref : String}
    (href : s.currentRevision.proposalContentRef = some ref) : immutableContentRef ref = true := by
  obtain ⟨own, hown, hcurrent⟩ := currentRevision_fold hfold
  rw [hcurrent] at href
  simp only [EffectStageRevision.ownErrors, List.append_eq_nil_iff, fieldErrors_eq_nil_iff] at hown
  have hchecks := hown.1.1.1.1.1.1.1.2
  simp only at href
  rw [href] at hchecks
  exact hchecks (immutableContentRefCheck ref) (List.mem_singleton.mpr rfl)

/-- The target reference is that of a staging event of the history. -/
theorem target_fold {s : EffectStageState} (hfold : fold events = some s) :
    ∃ event ∈ events, event.eventType = eventStaged ∧
      Payload.string event.payload "target_ref" = some s.target.targetRef := by
  refine fold_induction_staged (Q := fun s => ∃ event ∈ events, event.eventType = eventStaged ∧
    Payload.string event.payload "target_ref" = some s.target.targetRef) ?_ ?_ hfold
  · intro event hevent hkind s hopened
    obtain ⟨facts, hread, hstate⟩ := Option.bind_eq_some_iff.mp hopened
    obtain ⟨rfl, _⟩ := validated_eq_some hstate
    refine ⟨event, hevent, hkind, ?_⟩
    unfold readStaged at hread
    iterate 5 obtain ⟨_, _, hread⟩ := Option.bind_eq_some_iff.mp hread
    obtain ⟨targetRef, htargetRef, hread⟩ := Option.bind_eq_some_iff.mp hread
    iterate 2 obtain ⟨_, _, hread⟩ := Option.bind_eq_some_iff.mp hread
    obtain ⟨target, htarget, hread⟩ := Option.bind_eq_some_iff.mp hread
    iterate 10 obtain ⟨_, _, hread⟩ := Option.bind_eq_some_iff.mp hread
    obtain rfl := Option.some.inj hread
    obtain ⟨rfl, _⟩ := validated_eq_some htarget
    exact htargetRef
  · rintro s event _ ⟨staged, hstaged, hkind, htarget⟩
    refine ⟨staged, hstaged, hkind, ?_⟩
    have hstep := eventStep_applyEvent s event
    generalize applyEvent s event = s' at hstep
    cases hstep <;> exact htarget

variable {d : EffectStageDecision}

/-- The row keys of the decision are those of a decision event of the history. -/
theorem decisionRowKeys_fold {s : EffectStageState} (hfold : fold events = some s)
    (hd : s.decision = some d) :
    ∃ event ∈ events, event.eventType = eventDecision ∧
      Payload.optionalRowKeys event.payload = some d.rowKeys := by
  refine fold_induction (Q := fun s => ∀ d, s.decision = some d → ∃ event ∈ events,
    event.eventType = eventDecision ∧ Payload.optionalRowKeys event.payload = some d.rowKeys)
    ?_ ?_ hfold d hd
  · intro event _ s hopened d hd
    rw [decision_stateFromStaged hopened] at hd
    cases hd
  · intro s event hevent hrecorded d hd
    obtain ⟨_, hsame | hnone | ⟨hkind, _, hread⟩⟩ := decision_applyEvent s event
    · exact hrecorded d (hsame ▸ hd)
    · rw [hnone] at hd
      cases hd
    · refine ⟨event, hevent, hkind, ?_⟩
      rw [hread] at hd
      unfold readDecision at hd
      iterate 7 obtain ⟨_, _, hd⟩ := Option.bind_eq_some_iff.mp hd
      obtain ⟨rowKeys, hrowKeys, hd⟩ := Option.bind_eq_some_iff.mp hd
      obtain ⟨rfl, _⟩ := validated_eq_some hd
      exact hrowKeys

/-! ### Stores that ledgers append to -/

/-- The types of the events that a stage is folded from. -/
def stageEventTypes : List String :=
  [eventStaged, eventProjectionBound, eventRevised, eventDecision]

/-- The event stores that effect ledgers build, between events of other types. -/
inductive StageStore (sha256 : String → String) : RuntimeEventStore → Prop
  | empty : StageStore sha256 []
  | appended {s : RuntimeEventStore} (earlier : StageStore sha256 s) (l : RuntimeEffectLedger)
      (createdAt : String) (scope : EffectStageScope) (draft : StageEventDraft) :
      StageStore sha256 (l.appendStageEvent sha256 s createdAt scope draft).2
  | other {s : RuntimeEventStore} (earlier : StageStore sha256 s) (d : RuntimeEventDraft)
      (createdAt : String) (foreign : d.eventType ∉ stageEventTypes) :
      StageStore sha256 (s.appendEvent d createdAt).2

/-- What the store of one ledger after another keeps of a payload its model admitted. -/
def HoldsAdmitted (r : RuntimeEvent) : Prop :=
  r.eventType ∈ stageEventTypes → ∃ (model : PayloadModel) (p : Payload),
    WorkLedgerVocabulary.modelFor r.eventType = some model ∧ model.errors p = [] ∧
      p.CarriedBy r.payload

theorem admitted_of_stored {draft : StageEventDraft} {payload : Payload}
    (h : storedPayload draft = .ok payload) :
    ∃ model, WorkLedgerVocabulary.modelFor draft.eventType = some model ∧
      model.errors draft.payload = [] ∧ draft.payload.CarriedBy payload := by
  unfold storedPayload at h
  split at h
  · cases h
  · cases hmodel : WorkLedgerVocabulary.modelFor draft.eventType with
    | none =>
        simp [WorkLedgerVocabulary.validatePayload, hmodel, bind, Except.bind] at h
    | some model =>
        cases herrors : model.errors draft.payload with
        | cons error rest =>
            simp [WorkLedgerVocabulary.validatePayload, hmodel, herrors, bind, Except.bind] at h
        | nil =>
            refine ⟨model, rfl, herrors, ?_⟩
            obtain ⟨hagain, hsame⟩ := PayloadModel.dump_dump herrors
            simp only [WorkLedgerVocabulary.validatePayload, hmodel, herrors, bind, Except.bind,
              payloadForEvent, effectLedgerPayload, hagain, hsame, signLedgerWriter] at h
            intro key hkey
            rw [← PayloadModel.lookup_dump herrors]
            split at h
            · rw [← Except.ok.inj h, lookup_stamp hkey]
            · split at h
              · rw [← Except.ok.inj h, lookup_stamp hkey]
              · cases h

variable {sha256 : String → String} {s : RuntimeEventStore}

/-- Every stage event of such a store was admitted by the model of its type. -/
theorem holdsAdmitted_of_stageStore (h : StageStore sha256 s) : ∀ r ∈ s, HoldsAdmitted r := by
  induction h with
  | empty => exact fun r hr => (List.not_mem_nil hr).elim
  | @appended s _ l createdAt scope draft ih =>
      unfold appendStageEvent
      split
      · exact ih
      · split
        · exact ih
        · next payload hstored =>
            rcases s.appendEvent_cases (l.eventDraft sha256 draft payload) createdAt with
              ⟨r, _, hreply⟩ | ⟨_, hreply⟩
            · rw [hreply]
              cases (l.eventDraft sha256 draft payload).matchesEnvelope r with
              | true => exact ih
              | false => exact ih
            · rw [hreply]
              intro r hr _
              rcases List.mem_append.mp hr with hr | hr
              · exact ih r hr ‹_›
              · obtain rfl := List.mem_singleton.mp hr
                obtain ⟨model, hmodel, herrors, hcarried⟩ := admitted_of_stored hstored
                exact ⟨model, draft.payload, hmodel, herrors, hcarried⟩
  | @other s _ d createdAt foreign ih =>
      rcases s.appendEvent_cases d createdAt with ⟨r, _, hreply⟩ | ⟨_, hreply⟩
      · rw [hreply]
        exact ih
      · rw [hreply]
        intro r hr hkind
        rcases List.mem_append.mp hr with hr | hr
        · exact ih r hr hkind
        · obtain rfl := List.mem_singleton.mp hr
          exact (foreign hkind).elim

/-- The stores of stager calls are among them. -/
theorem stageStore_of_ledgerRun {ok : LedgerCall → LedgerWorld → Prop} {w : LedgerWorld}
    (h : LedgerRun sha256 ok w) : StageStore sha256 w.store := by
  induction h with
  | start => exact .empty
  | @called w _ external c _ _ ih =>
      rcases perform_cases external c w with hsame | ⟨scope, draft, _, happend⟩
      · rw [hsame]
        exact ih
      · rw [happend]
        exact .appended ih c.ledger c.createdAt scope draft
  | other _ e ih =>
      refine .other ih e.draft e.createdAt fun hkind => e.notEffect ?_
      have hsub : ∀ t ∈ stageEventTypes, t ∈ effectEventTypes := by decide
      exact hsub _ hkind

variable {l : RuntimeEffectLedger}

/-- A listed stage event was admitted by the model of its type. -/
theorem admitted_of_listed (h : StageStore sha256 s) {scope : EffectStageScope} {stageId : String}
    (hlisted : l.listStageEvents s scope stageId = .ok events) {event : StructuralEvent}
    (hevent : event ∈ events) (hkind : event.eventType ∈ stageEventTypes) :
    ∃ (model : PayloadModel) (p : Payload),
      WorkLedgerVocabulary.modelFor event.eventType = some model ∧ model.errors p = [] ∧
        p.CarriedBy event.payload := by
  obtain ⟨r, hr, hpresented⟩ := exists_left_of_forall₂ (listStageEvents_eq_ok hlisted).2 hevent
  obtain ⟨hpayload, _, _, htype⟩ := payload_structuralEvent hpresented
  rw [htype] at hkind ⊢
  rw [hpayload]
  exact holdsAdmitted_of_stageStore h r (List.mem_filter.mp (List.mem_filter.mp hr).1).1 hkind

variable {state : EffectStageState}

/-- The target reference of a listed stage is one the ledger admits. -/
theorem opaqueSafeUri_target (h : StageStore sha256 s) {scope : EffectStageScope}
    {stageId : String} (hlisted : l.listStageEvents s scope stageId = .ok events)
    (hfold : fold events = some state) : opaqueSafeUri state.target.targetRef = true := by
  obtain ⟨event, hevent, hkind, htarget⟩ := target_fold hfold
  obtain ⟨model, p, hmodel, herrors, hcarried⟩ :=
    admitted_of_listed h hlisted hevent (by rw [hkind]; decide)
  rw [hkind] at hmodel
  obtain rfl : effectStagedPayload = model := Option.some.inj hmodel
  have hpresent : p.present "target_ref" = some (.str state.target.targetRef) := by
    rw [← hcarried _ (by decide)]
    exact Payload.string_eq_some_iff.mp htarget
  have hacross := (PayloadModel.errors_eq_nil_iff.mp herrors).2.2
    ⟨opaqueSafeUri ((textOf p.present "target_ref").getD ""),
      "target_ref must be an opaque non-file URI reference"⟩ List.mem_cons_self
  simpa [textOf, hpresent] using hacross

theorem texts_eq_some {items : List Json} {keys : List String}
    (h : Payload.texts items = some keys) : items = keys.map Json.str := by
  induction items generalizing keys with
  | nil =>
      obtain rfl := Option.some.inj h
      rfl
  | cons item rest ih =>
      cases item with
      | str text =>
          obtain ⟨others, hothers, rfl⟩ := Option.map_eq_some_iff.mp h
          rw [ih hothers, List.map_cons]
      | _ => cases h

/-- The row keys of a listed stage's decision have the lengths of row keys. -/
theorem rowKeys_bounded (h : StageStore sha256 s) {scope : EffectStageScope} {stageId : String}
    (hlisted : l.listStageEvents s scope stageId = .ok events) (hfold : fold events = some state)
    (hd : state.decision = some d) {keys : List String} (hkeys : d.rowKeys = some keys) :
    ∀ key ∈ keys, key.isEmpty = false ∧ key.length ≤ 256 := by
  obtain ⟨event, hevent, hkind, hread⟩ := decisionRowKeys_fold hfold hd
  obtain ⟨model, p, hmodel, herrors, hcarried⟩ :=
    admitted_of_listed h hlisted hevent (by rw [hkind]; decide)
  rw [hkind] at hmodel
  obtain rfl : effectDecisionRecordedPayload = model := Option.some.inj hmodel
  rw [hcarried.optionalRowKeys, hkeys] at hread
  have hpresent : p.present "row_keys" = some (.arr (keys.map Json.str)) := by
    unfold Payload.optionalRowKeys at hread
    unfold Payload.present
    split at hread
    · cases hread
    · cases hread
    · next items hlookup =>
        split at hread
        · next texts htexts =>
            split at hread
            · obtain rfl := Option.some.inj (Option.some.inj hread)
              rw [hlookup, ← texts_eq_some htexts]
            · cases hread
        · cases hread
    · cases hread
  have hchecks := (PayloadModel.errors_eq_nil_iff.mp herrors).1 ⟨"row_keys", false, rowKeysField⟩
    (by simp [effectDecisionRecordedPayload, ledgerPayload])
  simp only [PayloadModel.fieldChecks, hpresent, rowKeysField] at hchecks
  intro key hkey
  have hbounded (check : Check) (hcheck : check ∈ boundedText 256 (.str key)) :
      check.holds = true := by
    refine hchecks check (List.mem_append_left _ (List.mem_flatMap.mpr ⟨.str key, ?_, hcheck⟩))
    exact List.mem_map_of_mem hkey
  have hmin := hbounded (minLength 1 key) List.mem_cons_self
  have hmax := hbounded (maxLength 256 key) (List.mem_cons_of_mem _ List.mem_cons_self)
  simp only [minLength, maxLength, decide_eq_true_eq] at hmin hmax
  refine ⟨?_, hmax⟩
  rw [String.isEmpty_eq_false_iff]
  rintro rfl
  exact absurd hmin (by decide)

/-! ### The claim of a dispatch request -/

/-- The form of a generated claim id: 32 hexadecimal digits behind a fixed prefix. -/
def MintedClaimId (claimId : String) : Prop :=
  ∃ hex : List Char, hex.length = 32 ∧ (∀ c ∈ hex, Text.isLowerHex c = true) ∧
    claimId = String.ofList ("clm_".toList ++ hex)

theorem isClaimIdText_of_minted {claimId : String} (h : MintedClaimId claimId) :
    isClaimIdText claimId = true := by
  obtain ⟨hex, hlength, hhex, rfl⟩ := h
  have hdot : '.' ∉ "clm_".toList ++ hex := by
    intro hmem
    rcases List.mem_append.mp hmem with hmem | hmem
    · revert hmem
      decide
    · exact absurd (hhex _ hmem) (by decide)
  have htail : ∀ c ∈ hex, (Text.isDigit c || ('a' ≤ c && c ≤ 'z')) = true := by
    intro c hc
    have hclass := hhex c hc
    simp only [Text.isLowerHex, Bool.or_eq_true, Bool.and_eq_true, decide_eq_true_eq] at hclass
    simp only [Text.isDigit, Bool.or_eq_true, Bool.and_eq_true, decide_eq_true_eq]
    rcases hclass with hdigit | ⟨hlow, hhigh⟩
    · exact .inl hdigit
    · exact .inr ⟨hlow, Char.le_trans hhigh (by decide)⟩
  have hparent : Text.contains (String.ofList ("clm_".toList ++ hex)) ".." = false := by
    rw [Text.contains, String.toList_ofList, List.any_eq_false]
    intro rest hrest hprefix
    obtain ⟨front, hfront⟩ := (List.mem_tails _ _).mp hrest
    obtain ⟨back, hback⟩ := List.isPrefixOf_iff_prefix.mp hprefix
    apply hdot
    rw [← hfront, ← hback]
    simp
  have hall : hex.all (fun c => Text.isDigit c || ('a' ≤ c && c ≤ 'z') || c == '.' || c == '_' ||
      c == '-') = true := by
    rw [List.all_eq_true]
    intro c hc
    simp [htail c hc]
  unfold isClaimIdText Text.matchesToken
  rw [hparent, String.toList_ofList]
  simp only [String.reduceToList, List.cons_append, List.nil_append, List.all_cons, hall,
    List.length_cons, hlength]
  decide

/-- A reference of a claim passes its checks when it is an opaque URI. -/
theorem referenceChecks_hold_iff {label : String} {forbid : Bool} {ref : String} :
    (∀ check ∈ [maxLength maxReferenceLength ref, safeOpaqueUriCheck label forbid ref],
      check.holds = true) ↔ safeOpaqueUri forbid ref = true := by
  have hlength : safeOpaqueUri forbid ref = true → ref.length ≤ maxReferenceLength := by
    unfold safeOpaqueUri
    grind
  simp only [List.forall_mem_cons, List.not_mem_nil, false_imp_iff, implies_true, and_true,
    maxLength, safeOpaqueUriCheck, decide_eq_true_eq]
  exact ⟨fun h => h.2, fun h => ⟨hlength h, h⟩⟩

section Claim
variable {execution : EffectExecutionScope} {request : EffectDispatchRequest}
  {prepared : PreparedEffect} {mint : Minted}

/-- The fields of a new claim are fine but for two references. -/
theorem requestErrors_claimFields (hscope : execution.errors = [])
    (hminted : MintedClaimId mint.claimId) (hkey : isStableKey request.idempotencyKey = true)
    (htarget : safeOpaqueUri false request.targetRef = true)
    (hproposal : safeOpaqueUri false request.proposalRef = true)
    (hcontent : safeOpaqueUri false request.proposalContentRef = true)
    (hrows : ∀ keys, request.rowKeys = some keys → ∀ key ∈ keys,
      key.isEmpty = false ∧ key.length ≤ 256) :
    (claimFields execution request prepared mint).requestErrors = [] ↔
      (∀ parsed, Url.urlsplit request.proposalContentRef = some parsed →
        parsed.scheme ≠ "proposal") ∧
      ∀ ref, prepared.preparedRef = some ref → safeOpaqueUri false ref = true := by
  have hvalid := request.valid
  simp only [EffectDispatchFields.errors, EffectExecutionScope.errors, List.append_eq_nil_iff,
    fieldErrors_eq_nil_iff] at hvalid hscope
  obtain ⟨⟨⟨⟨⟨⟨⟨⟨⟨hstage, hrevision⟩, _⟩, _⟩, htargetDigest⟩, _⟩, _⟩, hproposalDigest⟩, hledgerId⟩,
    hrowKeys⟩ := hvalid
  obtain ⟨⟨⟨⟨horg, _⟩, _⟩, hrun⟩, _⟩ := hscope
  have hclaimId := isClaimIdText_of_minted hminted
  have hprepared : (∀ check ∈ optionalChecks prepared.preparedRef fun ref =>
      [maxLength maxReferenceLength ref, safeOpaqueUriCheck "effect claim reference" false ref],
      check.holds = true) ↔
      ∀ ref, prepared.preparedRef = some ref → safeOpaqueUri false ref = true := by
    cases prepared.preparedRef with
    | none => simp
    | some ref =>
        rw [optionalChecks_some, referenceChecks_hold_iff]
        simp
  simp only [EffectClaimFields.requestErrors, claimFields, List.append_eq_nil_iff,
    fieldErrors_eq_nil_iff, hprepared, optionalChecks_some, referenceChecks_hold_iff,
    safeOpaqueUri_true_iff]
  constructor
  · rintro ⟨⟨⟨⟨⟨⟨_, hreserved⟩, _⟩, _⟩, hlocator⟩, _⟩, _⟩
    exact ⟨hlocator.2, hreserved⟩
  · rintro ⟨hscheme, hreserved⟩
    refine ⟨⟨⟨⟨⟨⟨⟨⟨⟨⟨⟨⟨⟨⟨horg, hrun⟩, ?_⟩, hrevision⟩, ?_⟩, ?_⟩, hproposalDigest⟩, htargetDigest⟩, ?_⟩,
      hreserved⟩, ?_⟩, ?_⟩, hcontent, hscheme⟩, ?_⟩, ?_⟩
    · have hnonempty := hstage (minLength 1 request.stageId) (by simp [identifierChecks])
      have hbound := hstage (maxLength 255 request.stageId) (by simp [identifierChecks])
      have htoken := hstage ⟨isOpaqueToken request.stageId,
        "effect dispatch identifier must be an opaque token"⟩ (by simp [identifierChecks])
      simp only [minLength, maxLength, decide_eq_true_eq] at hnonempty hbound htoken
      have hstageId : request.stageId.isEmpty = false := by
        rw [String.isEmpty_eq_false_iff]
        intro hempty
        rw [hempty] at hnonempty
        exact absurd hnonempty (by decide)
      simp [hstageId, hbound, htoken]
    · simpa using hclaimId
    · simpa using hkey
    · simp [positive]
    · simpa [safeOpaqueUriCheck] using htarget
    · simpa [safeOpaqueUriCheck] using hproposal
    · intro check hcheck
      exact hledgerId check (List.mem_append_left [_] hcheck)
    · cases hkeys : request.rowKeys with
      | none => simp
      | some keys =>
          rw [hkeys] at hrowKeys
          have hunique := hrowKeys (uniqueRowKeys keys) List.mem_cons_self
          simp only [uniqueRowKeys, Bool.and_eq_true] at hunique
          have hbounds : (keys.all fun key => !key.isEmpty && key.length ≤ 256) = true := by
            rw [List.all_eq_true]
            intro key hkey
            obtain ⟨hnonempty, hlength⟩ := hrows keys hkeys key hkey
            simp [hnonempty, hlength]
          intro check hcheck
          obtain rfl := List.mem_singleton.mp hcheck
          simp only [Bool.and_eq_true]
          exact ⟨hunique, hbounds⟩

/-- A new claim passes the rule across its fields. -/
theorem stateIsConsistent_claimFields
    (hproposal : ProposalUriCodec.parse request.proposalRef =
      some ⟨request.stageId, request.revision⟩) :
    (claimFields execution request prepared mint).stateIsConsistent = [] := by
  have hproposals : ∀ check ∈ (claimFields execution request prepared mint).proposalChecks,
      check.holds = true := by
    unfold EffectClaimFields.proposalChecks
    split
    · simp [claimFields, hproposal]
    · simp
  unfold EffectClaimFields.stateIsConsistent
  rw [fieldErrors_eq_nil_iff]
  intro check hcheck
  simp only [EffectClaimFields.outcomeCheck, EffectClaimFields.receiptChecks,
    EffectClaimFields.rowResultChecks, EffectClaimFields.completedRowSetCheck, claimFields,
    optionalChecks_none, List.append_nil, List.append_assoc, List.mem_append,
    List.mem_singleton] at hcheck
  rcases hcheck with hcheck | rfl | rfl
  · exact hproposals check hcheck
  · rfl
  · rfl

/-- The row keys of a command that an approval authorises are among the approved ones. -/
theorem subset_of_commandRowScopeMatches {events : List StructuralEvent}
    {decided : Option (List String)} {command : EffectCommitCommand}
    (h : commandRowScopeMatches events decided command = true) {keys : List String}
    (hkeys : command.rowKeys = some keys) : ∃ all, decided = some all ∧ keys ⊆ all := by
  unfold commandRowScopeMatches at h
  split at h
  · exact ⟨keys, (beq_iff_eq.mp h).trans hkeys, List.Subset.refl keys⟩
  · rw [hkeys] at h
    cases decided with
    | none => cases h
    | some all =>
        refine ⟨all, rfl, fun key hkey => ?_⟩
        obtain ⟨hall, _⟩ := Bool.and_eq_true_iff.mp h
        exact List.contains_iff_mem.mp (List.all_eq_true.mp hall key hkey)

end Claim

/-- What an authorised command reads of the stage it commits. -/
theorem authorises_spec {scope : EffectStageScope} {command : EffectCommitCommand}
    (h : authorises scope events state command = true) :
    ∃ d, state.decision = some d ∧ commandRowScopeMatches events d.rowKeys command = true ∧
      state.currentRevision.revision = command.revision := by
  unfold authorises at h
  cases hdecision : state.decision with
  | none => simp [hdecision] at h
  | some d =>
      simp only [hdecision, Bool.and_eq_true, beq_iff_eq] at h
      exact ⟨d, rfl, h.1.1.1.2.2, h.1.1.2⟩

/-- A dispatch request is derived from the decided stage and its command. -/
theorem dispatchRequest_spec {command : EffectCommitCommand} {request : EffectDispatchRequest}
    (h : dispatchRequest state command = .ok request) (hd : state.decision = some d) :
    ∃ contentRef, state.currentRevision.proposalContentRef = some contentRef ∧
      request.toEffectDispatchFields = dispatchFields state d contentRef command := by
  unfold dispatchRequest at h
  rw [hd] at h
  cases hcontent : state.currentRevision.proposalContentRef with
  | none =>
      rw [hcontent] at h
      cases h
  | some contentRef =>
      rw [hcontent] at h
      dsimp only at h
      split at h
      · rw [← Except.ok.inj h]
        exact ⟨contentRef, rfl, rfl⟩
      · cases h

/-- The content reference does not split to the scheme of proposals, and the executor's own
reference, if any, is an opaque URI. -/
def ReferencesFit (contentRef preparedRef : Option String) : Prop :=
  (∀ ref, contentRef = some ref → ∀ parsed, Url.urlsplit ref = some parsed →
    parsed.scheme ≠ "proposal") ∧
  ∀ ref, preparedRef = some ref → safeOpaqueUri false ref = true

/-- Between preparing an effect and claiming it, a dispatch raises when no claim is built. -/
theorem dispatchPrepared_raised_iff {execution : EffectExecutionScope}
    {request : EffectDispatchRequest} {executor : EffectExecutor} {options : DispatchOptions}
    {prepared : PreparedEffect} {mint : Minted} :
    (∀ e, dispatchPrepared execution request executor options prepared mint ≠ .raised e) ↔
      ∃ claim, EffectClaim.modelValidate (claimFields execution request prepared mint) =
        .ok claim := by
  unfold dispatchPrepared
  cases EffectClaim.modelValidate (claimFields execution request prepared mint) with
  | error errors =>
      constructor
      · intro h
        exact (h _ rfl).elim
      · rintro ⟨_, h⟩
        cases h
  | ok claim =>
      constructor
      · intro _
        exact ⟨claim, rfl⟩
      · intro _ e h
        cases h

/-- The claim of an approved effect is built, and its dispatch does not raise before it, exactly
when the content reference and the executor's own reference fit. -/
theorem claim_accepted_iff {sha256 : String → String} {s : RuntimeEventStore}
    (hstore : StageStore sha256 s) {l : RuntimeEffectLedger} {scope : EffectStageScope}
    {command : EffectCommitCommand} {events : List StructuralEvent} {state : EffectStageState}
    {request : EffectDispatchRequest} {execution : EffectExecutionScope}
    {mint : Minted} (hcommand : command.errors = [])
    (hlisted : l.listStageEvents s scope command.stageId = .ok events)
    (hfold : fold events = some state) (happroved : authorises scope events state command = true)
    (hrequest : dispatchRequest state command = .ok request) (hscope : execution.errors = [])
    (hminted : MintedClaimId mint.claimId) (prepared : PreparedEffect) (executor : EffectExecutor)
    (options : DispatchOptions) :
    ((∃ claim, EffectClaim.modelValidate (claimFields execution request prepared mint) =
        .ok claim) ↔
      ReferencesFit state.currentRevision.proposalContentRef prepared.preparedRef) ∧
    ((∀ e, dispatchPrepared execution request executor options prepared mint ≠ .raised e) ↔
      ReferencesFit state.currentRevision.proposalContentRef prepared.preparedRef) := by
  rw [dispatchPrepared_raised_iff, and_self_iff]
  obtain ⟨d, hdecision, hrowScope, hrevision⟩ := authorises_spec happroved
  obtain ⟨contentRef, hcontent, hfields⟩ := dispatchRequest_spec hrequest hdecision
  have hrequested : request.proposalContentRef = contentRef := by rw [hfields]; rfl
  have hkey : isStableKey request.idempotencyKey = true := by
    simp only [EffectCommitCommand.errors, List.append_eq_nil_iff, fieldErrors_eq_nil_iff] at hcommand
    have hstable := hcommand.1.1.2
    rw [hfields]
    exact hstable ⟨isStableKey command.idempotencyKey, "idempotency_key must be a stable opaque key"⟩
      List.mem_cons_self
  have htarget : safeOpaqueUri false request.targetRef = true := by
    rw [hfields]
    exact safeOpaqueUri_of_opaqueSafeUri (opaqueSafeUri_target hstore hlisted hfold)
  have hparse : ProposalUriCodec.parse request.proposalRef =
      some ⟨request.stageId, request.revision⟩ := by
    have hproposal := (sound_and_valid hfold).1.proposal _
      (List.mem_append_right _ (List.mem_singleton.mpr rfl))
    rw [hrevision] at hproposal
    rw [hfields]
    exact hproposal
  have hlocator : safeOpaqueUri false request.proposalContentRef = true := by
    have himmutable := contentRef_fold hfold hcontent
    rw [immutableContentRef_eq] at himmutable
    rw [hrequested]
    exact safeOpaqueUri_of_opaqueSafeUri (Bool.and_eq_true_iff.mp himmutable).1
  have hrows : ∀ keys, request.rowKeys = some keys → ∀ key ∈ keys,
      key.isEmpty = false ∧ key.length ≤ 256 := by
    intro keys hkeys key hmem
    rw [hfields] at hkeys
    obtain ⟨all, hall, hsubset⟩ := subset_of_commandRowScopeMatches hrowScope hkeys
    exact rowKeys_bounded hstore hlisted hfold hdecision hall key (hsubset hmem)
  have hresult : (claimFields execution request prepared mint).resultErrors = [] := rfl
  have hown : (claimFields execution request prepared mint).requestErrors = [] ↔ _ :=
    requestErrors_claimFields hscope hminted hkey htarget (safeOpaqueUri_of_parse hparse) hlocator
      hrows
  rw [hrequested] at hown
  have hfit : ReferencesFit state.currentRevision.proposalContentRef prepared.preparedRef ↔
      (claimFields execution request prepared mint).requestErrors = [] := by
    rw [hown, ReferencesFit, hcontent]
    simp only [Option.some.injEq, forall_eq']
  rw [hfit]
  unfold EffectClaim.modelValidate
  constructor
  · rintro ⟨claim, hclaim⟩
    split at hclaim
    · next hvalid => exact ((EffectClaimFields.errors_eq_nil_iff _).mp hvalid).1
    · cases hclaim
  · intro hnone
    have hvalid := (EffectClaimFields.errors_eq_nil_iff _).mpr
      ⟨hnone, hresult, stateIsConsistent_claimFields hparse⟩
    rw [dif_pos hvalid]
    exact ⟨_, rfl⟩

namespace Sample

/-- A call that stages a write of the given content. -/
def contentStageCall (contentRef : String) : LedgerCall :=
  ⟨boundLedger, .stage { stageRequest with
    proposedEffect := { stageRequest.proposedEffect with proposalContentRef := contentRef } }
    stageId, "t0", "t0"⟩

def contentApproveCall : LedgerCall := ⟨boundLedger, .decide (approval "decide:1"), "t1", "t1"⟩

/-- The ledger after a write of the given content was staged and approved. -/
def contentLedger (contentRef : String) : LedgerWorld :=
  (contentApproveCall.perform (fun s => s) resolvedExternal
    ((contentStageCall contentRef).perform (fun s => s) resolvedExternal LedgerWorld.empty).2).2

/-- The approval's command with the events, the stage and the request it leads to. -/
structure Commitment where
  command : EffectCommitCommand
  events : List StructuralEvent
  state : EffectStageState
  request : EffectDispatchRequest

/-- What the approval of the content enqueues, if it can be dispatched. -/
def commitment (contentRef : String) : Option Commitment := do
  let w := contentLedger contentRef
  let approved ← w.appends.getLast?
  let event ← approved.result.toOption
  let command := commitCommand (approval "decide:1") event
  let events ← (boundLedger.listStageEvents w.store stageScope command.stageId).toOption
  let state ← fold events
  let request ← (dispatchRequest state command).toOption
  guard (command.errors = [] ∧ authorises stageScope events state command = true)
  pure ⟨command, events, state, request⟩

theorem ok_of_toOption {ε α : Type} {r : Except ε α} {a : α} (h : r.toOption = some a) :
    r = .ok a := by
  cases r with
  | ok b => exact congrArg Except.ok (Option.some.inj h)
  | error e => cases h

theorem commitment_spec {contentRef : String} {c : Commitment}
    (h : commitment contentRef = some c) :
    c.command.errors = [] ∧ boundLedger.listStageEvents (contentLedger contentRef).store stageScope
        c.command.stageId = .ok c.events ∧ fold c.events = some c.state ∧
      authorises stageScope c.events c.state c.command = true ∧
      dispatchRequest c.state c.command = .ok c.request := by
  unfold commitment at h
  obtain ⟨_, _, h⟩ := Option.bind_eq_some_iff.mp h
  obtain ⟨event, _, h⟩ := Option.bind_eq_some_iff.mp h
  obtain ⟨events, hevents, h⟩ := Option.bind_eq_some_iff.mp h
  obtain ⟨state, hstate, h⟩ := Option.bind_eq_some_iff.mp h
  obtain ⟨request, hrequest, h⟩ := Option.bind_eq_some_iff.mp h
  obtain ⟨_, hguard, h⟩ := Option.bind_eq_some_iff.mp h
  obtain rfl := Option.some.inj h
  obtain ⟨hcommand, happroved⟩ := (Option.guard_eq_some' _).mp hguard
  exact ⟨hcommand, ok_of_toOption hevents, hstate, happroved, ok_of_toOption hrequest⟩

theorem contentLedger_store (contentRef : String)
    (hvalid : ({ stageRequest.proposedEffect with proposalContentRef := contentRef } :
      ProposedEffect).Valid) : StageStore (fun s => s) (contentLedger contentRef).store := by
  have hscope := scope_owner_valid
  have hrun : LedgerRun (fun s => s) (fun _ _ => True) (contentLedger contentRef) :=
    .called (.called .start resolvedExternal (contentStageCall contentRef)
      ⟨hscope.1, hscope.2, hvalid⟩ trivial) resolvedExternal contentApproveCall hscope trivial
  exact stageStore_of_ledgerRun hrun

/-- The generated values of a sample claim. -/
def contentMint : Minted := ⟨"clm_0123456789abcdef0123456789abcdef", "t1", "t1", "t2"⟩

theorem contentMint_minted : MintedClaimId contentMint.claimId :=
  ⟨"0123456789abcdef0123456789abcdef".toList, by decide +kernel,
    List.all_eq_true.mp (by decide +kernel), by decide +kernel⟩

/-- The plain content is staged and approved. -/
def contentCommitment : { c : Commitment // commitment "artifact://content/1" = some c ∧
    (c.state.currentRevision.proposalContentRef == some "artifact://content/1") = true } :=
  checked _ _ (by decide +kernel)

/-- The disguised content is staged and approved, and a claim of it is refused. -/
def disguisedCommitment : { c : Commitment // commitment "pro\tposal://content/1" = some c ∧
    (EffectClaim.modelValidate (claimFields scope c.request ⟨.dispatch c.request, none, none⟩
      contentMint)).toOption.isNone = true } :=
  checked _ _ (by decide +kernel)

end Sample

/-- A write of ordinary content is claimed once its executor has prepared it. -/
theorem claim_accepted_iff_sample :
    ∃ c, Sample.commitment "artifact://content/1" = some c ∧
      (∃ claim, EffectClaim.modelValidate (claimFields Sample.scope c.request
        ⟨.dispatch c.request, some "prepared://crm/1", none⟩ Sample.contentMint) = .ok claim) := by
  have hvalid : ({ Sample.stageRequest.proposedEffect with
      proposalContentRef := "artifact://content/1" } : ProposedEffect).Valid := by decide +kernel
  have hfacts : Sample.scope.errors = [] ∧ safeOpaqueUri false "prepared://crm/1" = true ∧
      (Url.urlsplit "artifact://content/1").all (fun parsed => parsed.scheme != "proposal") =
        true := by decide +kernel
  obtain ⟨c, hc, hcontent⟩ := Sample.contentCommitment
  obtain ⟨hcommand, hlisted, hfold, happroved, hrequest⟩ := Sample.commitment_spec hc
  refine ⟨c, hc, (claim_accepted_iff (Sample.contentLedger_store _ hvalid) hcommand hlisted hfold
    happroved hrequest hfacts.1 Sample.contentMint_minted _ Sample.executor {}).1.mpr ⟨?_, ?_⟩⟩
  · intro ref href parsed hparsed
    rw [beq_iff_eq.mp hcontent] at href
    obtain rfl := Option.some.inj href
    have hscheme := hfacts.2.2
    rw [hparsed] at hscheme
    exact bne_iff_ne.mp hscheme
  · intro ref href
    obtain rfl := Option.some.inj href
    exact hfacts.2.1

/-- A write whose content reference hides the scheme of proposals behind a tab is staged and
approved, and raises when it is dispatched. -/
theorem disguised_reference_is_refused :
    StageStore (fun s => s) (Sample.contentLedger "pro\tposal://content/1").store ∧
      ∃ c, Sample.commitment "pro\tposal://content/1" = some c ∧
        (∀ claim, EffectClaim.modelValidate (claimFields Sample.scope c.request
          ⟨.dispatch c.request, none, none⟩ Sample.contentMint) ≠ .ok claim) ∧
        ∃ e, dispatchPrepared Sample.scope c.request Sample.executor {}
          ⟨.dispatch c.request, none, none⟩ Sample.contentMint = .raised e := by
  have hvalid : ({ Sample.stageRequest.proposedEffect with
      proposalContentRef := "pro\tposal://content/1" } : ProposedEffect).Valid := by decide +kernel
  obtain ⟨c, hc, hnone⟩ := Sample.disguisedCommitment
  refine ⟨Sample.contentLedger_store _ hvalid, c, hc, ?_⟩
  unfold dispatchPrepared
  cases hclaim : EffectClaim.modelValidate (claimFields Sample.scope c.request
      ⟨.dispatch c.request, none, none⟩ Sample.contentMint) with
  | ok claim =>
      rw [hclaim] at hnone
      cases hnone
  | error errors =>
      refine ⟨fun claim h => ?_, _, rfl⟩
      cases h

end CopilotRuntime.Effects
