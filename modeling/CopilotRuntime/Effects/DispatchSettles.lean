import CopilotRuntime.Effects.Dispatch

/-!
# When a dispatched claim settles

Every exit of a dispatch rebuilds its claim through the claim's validators. A
record the validators reject is raised instead of stored, and the claim stays
claimed. This module says exactly which outcomes are recorded.

## Implementation notes

One dispatch runs alone here, against the in-memory store. The replies to its
outside calls are arbitrary values of their declared types.
-/

namespace CopilotRuntime.Effects

open Foundation

/-- The record of an attempt that a completed claim accepts: exact row outcomes for a
row-set request and none otherwise. -/
def rowsRecorded (rowKeys : Option (List String))
    (rowResults : Option (List WriteAppliedRowResult)) : Prop :=
  match rowKeys, rowResults with
  | none, none => True
  | some keys, some results => EffectClaimFields.coversExactly results keys = true
  | _, _ => False

/-- A receipt names the stage and the claim it belongs to. -/
def receiptRecorded (stageId claimId : String) (receiptRef : Option String) : Prop :=
  ∀ ref, receiptRef = some ref → EffectReceiptRefCodec.parse ref = some ⟨stageId, claimId⟩

section Records
variable (claim : EffectClaim) (result : EffectExecutionResult) (state : EffectClaimState)
  (updatedAt : String)

theorem requestErrors_completedFields :
    (completedFields claim result state updatedAt).requestErrors = [] :=
  ((EffectClaimFields.errors_eq_nil_iff _).mp claim.valid).1

/-- A receipt reference an execution result may carry also fits a claim. -/
theorem length_le_of_parse {ref : String} (h : (EffectReceiptRefCodec.parse ref).isSome) :
    ref.length ≤ maxReferenceLength := by
  by_contra hlong
  have hparts : referenceParts "receipt://effects/" ref = none := by
    simp [referenceParts, hlong]
  simp [EffectReceiptRefCodec.parse, hparts] at h

theorem resultErrors_completedFields :
    (completedFields claim result state updatedAt).resultErrors = [] := by
  have hvalid := result.valid
  simp only [EffectExecutionFields.errors, List.append_eq_nil_iff, fieldErrors_eq_nil_iff] at hvalid
  obtain ⟨hreceipt, hdigest⟩ := hvalid
  simp only [EffectClaimFields.resultErrors, completedFields, List.append_eq_nil_iff,
    fieldErrors_eq_nil_iff]
  refine ⟨⟨?_, hdigest⟩, ?_⟩
  · cases href : result.receiptRef with
    | none => simp
    | some ref =>
        have hparse : (EffectReceiptRefCodec.parse ref).isSome := by
          simpa [href, receiptRefCheck] using hreceipt
        simpa [maxLength, receiptRefCheck, hparse] using length_le_of_parse hparse
  · cases hmessage : result.safeMessage with
    | none => simp [safeMessage?]
    | some message =>
        by_cases hsafe : isSafeMessage message <;> simp [safeMessage?, Option.filter, hsafe]

theorem proposalChecks_hold :
    ∀ check ∈ (completedFields claim result state updatedAt).proposalChecks,
      check.holds = true := by
  have hconsistent := ((EffectClaimFields.errors_eq_nil_iff _).mp claim.valid).2.2
  simp only [EffectClaimFields.stateIsConsistent, fieldErrors_eq_nil_iff, List.mem_append] at hconsistent
  exact fun check hcheck => hconsistent check (.inl (.inl (.inl (.inl hcheck))))

/-- Only the cross-field rule can reject the record of an attempt. -/
theorem errors_completedFields_eq_nil_iff :
    (completedFields claim result state updatedAt).errors = [] ↔
      (completedFields claim result state updatedAt).outcomeCheck.holds = true ∧
        receiptRecorded claim.stageId claim.claimId result.receiptRef ∧
        (∀ check ∈ (completedFields claim result state updatedAt).rowResultChecks,
          check.holds = true) ∧
        (completedFields claim result state updatedAt).completedRowSetCheck.holds = true := by
  rw [EffectClaimFields.errors_eq_nil_iff, EffectClaimFields.stateIsConsistent,
    fieldErrors_eq_nil_iff]
  have hproposal := proposalChecks_hold claim result state updatedAt
  have hreceipt :
      (∀ check ∈ (completedFields claim result state updatedAt).receiptChecks,
        check.holds = true) ↔ receiptRecorded claim.stageId claim.claimId result.receiptRef := by
    unfold EffectClaimFields.receiptChecks receiptRecorded completedFields
    cases result.receiptRef <;> simp
  simp only [requestErrors_completedFields, resultErrors_completedFields, true_and,
    List.forall_mem_append, List.forall_mem_singleton, hreceipt]
  constructor
  · rintro ⟨⟨⟨⟨_, houtcome⟩, href⟩, hrows⟩, hset⟩
    exact ⟨houtcome, href, hrows, hset⟩
  · rintro ⟨houtcome, href, hrows, hset⟩
    exact ⟨⟨⟨⟨hproposal, houtcome⟩, href⟩, hrows⟩, hset⟩

theorem errors_completed_eq_nil_iff (certain : result.outcome ≠ .indeterminate) :
    (completedFields claim result .completed updatedAt).errors = [] ↔
      receiptRecorded claim.stageId claim.claimId result.receiptRef ∧
        rowsRecorded claim.rowKeys result.rowResults := by
  rw [errors_completedFields_eq_nil_iff]
  unfold EffectClaimFields.outcomeCheck EffectClaimFields.rowResultChecks
    EffectClaimFields.completedRowSetCheck rowsRecorded completedFields
  cases claim.rowKeys <;> cases result.rowResults <;> simp [certain]

/-- An indeterminate or cancelled claim accepts no row outcomes. -/
theorem errors_unfinished_eq_nil_iff (unfinished : state = .indeterminate ∧
    result.outcome = .indeterminate ∨ state = .cancelled ∧ result.outcome = .cancelled) :
    (completedFields claim result state updatedAt).errors = [] ↔
      receiptRecorded claim.stageId claim.claimId result.receiptRef ∧ result.rowResults = none := by
  rw [errors_completedFields_eq_nil_iff]
  unfold EffectClaimFields.outcomeCheck EffectClaimFields.rowResultChecks
    EffectClaimFields.completedRowSetCheck completedFields
  obtain ⟨rfl, houtcome⟩ | ⟨rfl, houtcome⟩ := unfinished <;>
    cases claim.rowKeys <;> cases result.rowResults <;> simp [houtcome]

end Records

section Runs
variable (replies : CallReplies)

/-- Run a program of one dispatch alone, with the given replies to its outside calls. -/
abbrev runAlone {α : Type} (p : EffectProgram α) (w : EffectWorld) :
    Except EffectError α × EffectWorld :=
  p.runWith (EffectWorld.answer replies.external) w

/-- The dispatch returned, and no claim of the key is still claimed. -/
def Settled (key : ClaimKey) (outcome : Except EffectError EffectDispatchResult × EffectWorld) :
    Prop :=
  (∃ result, outcome.1 = .ok result) ∧
    ∀ claim, outcome.2.claims.get key = some claim → claim.state ≠ .claimed

variable {replies}

/-- Storing a valid completion of a stored claimed claim succeeds. -/
theorem update_completed {w : EffectWorld} {claim completed : EffectClaim}
    {result : EffectExecutionResult} {state : EffectClaimState} {updatedAt : String}
    (stored : w.claims.get claim.key = some claim) (claimed : claim.state = .claimed)
    (h : completed.toEffectClaimFields = completedFields claim result state updatedAt) :
    w.claims.update completed = (.ok completed, w.claims.put completed) := by
  have hkey : w.claims.get completed.key = some claim := by
    rw [h]
    exact stored
  have hid : completed.claimId = claim.claimId := by rw [h]; rfl
  have hsame : claim.sameRequestAs completed = true := by
    simp [EffectClaim.sameRequestAs, h, completedFields]
  have hcreated : completed.createdAt = claim.createdAt := by rw [h]; rfl
  have hallowed : completed.state ∈ allowedStates claim.state := by
    rw [claimed]
    cases completed.state <;> decide
  have hidentity : completed.orgId = claim.orgId ∧ completed.executor = claim.executor ∧
      completed.idempotencyKey = claim.idempotencyKey := by
    rw [h]
    exact ⟨rfl, rfl, rfl⟩
  have hstep : validateClaimTransition claim completed = .ok () := by
    simp [validateClaimTransition, hsame, hid, hcreated, hidentity, hallowed]
    simp [claimed]
  simp [InMemoryEffectClaimStore.update, hkey, hid, hstep]

/-- Recording an attempt settles its claim exactly when the record is valid. -/
theorem settled_settle_iff {w : EffectWorld} {claim : EffectClaim} {result : EffectExecutionResult}
    {state : EffectClaimState} {updatedAt : String} (f : EffectClaim → EffectDispatchResult)
    (stored : w.claims.get claim.key = some claim) (claimed : claim.state = .claimed)
    (unclaimed : state ≠ .claimed) :
    Settled claim.key
        (runAlone replies (settle claim result state updatedAt >>= fun c => pure (f c)) w) ↔
      (completedFields claim result state updatedAt).errors = [] := by
  unfold settle
  cases hvalidate : EffectClaim.modelValidate (completedFields claim result state updatedAt) with
  | error errors =>
      have hinvalid : (completedFields claim result state updatedAt).errors ≠ [] := by
        intro hvalid
        simp [EffectClaim.modelValidate, hvalid] at hvalidate
      simp [Settled, hinvalid]
  | ok completed =>
      have hfields := EffectClaim.modelValidate_eq_ok_iff.mp hvalidate
      have hvalid : (completedFields claim result state updatedAt).errors = [] :=
        hfields ▸ completed.valid
      have hupdate := update_completed stored claimed hfields
      have hkey : completed.key = claim.key := by rw [hfields]; rfl
      have hstate : completed.state = state := by rw [hfields]; rfl
      simp [Settled, EffectWorld.answer, hupdate, InMemoryEffectClaimStore.get_put, hkey, hvalid,
        hstate, unclaimed]

/-- The record a result leaves on the claim it is the outcome of is admissible. -/
def resultRecorded (stageId claimId : String) (rowKeys : Option (List String))
    (result : EffectExecutionResult) : Prop :=
  receiptRecorded stageId claimId result.receiptRef ∧
    if result.outcome = .indeterminate then result.rowResults = none
    else rowsRecorded rowKeys result.rowResults

/-- The reply to a call that is made only when the caller supplied it. -/
def askedReply {α : Type} (supplied : Bool) (reply : Except EffectError α) (default : α) :
    Except EffectError α :=
  if supplied then reply else .ok default

/-- The replies under which a dispatch settles the claim it creates. -/
def SettlesWhen (stageId claimId : String) (rowKeys : Option (List String))
    (cancellable observed : Bool) (replies : CallReplies) : Prop :=
  askedReply observed replies.observe () = .ok () ∧
    match askedReply cancellable replies.cancellation false with
    | .error _ => False
    | .ok true => True
    | .ok false =>
        if (verdict replies.authorize).allowed then
          match replies.apply with
          | .error _ => True
          | .ok result => resultRecorded stageId claimId rowKeys result
        else rowKeys = none

section Paths
variable {w : EffectWorld} {claim : EffectClaim} {scope : EffectExecutionScope}
  {request : EffectDispatchRequest} {executor : EffectExecutor} {prepared : PreparedEffect}
  {mint : Minted} {expected : Option String} {cancellable observed : Bool}

theorem runAlone_abortSafely {α : Type} (f : Unit → EffectProgram α) :
    runAlone replies (abortSafely executor prepared >>= f) w = runAlone replies (f ()) w := rfl

theorem runAlone_claimGet {α : Type} (key : ClaimKey)
    (f : (EffectOp.claimGet key).Reply → EffectProgram α) :
    runAlone replies (perform (.claimGet key) >>= f) w = runAlone replies (f (w.claims.get key)) w :=
  rfl

theorem runAlone_publishClaim {α : Type} (f : Unit → EffectProgram α) :
    runAlone replies
        (publishClaim scope (callerOptions expected cancellable observed) claim >>= f) w =
      match askedReply observed replies.observe () with
      | .ok _ => runAlone replies (f ()) w
      | .error e => (.error e, w) := by
  cases observed with
  | false => rfl
  | true =>
      unfold publishClaim callerOptions askedReply
      cases hreply : replies.observe <;>
        simp [EffectWorld.answer, CallReplies.external, hreply]

theorem runAlone_checkCancelled {α : Type} (f : Bool → EffectProgram α) :
    runAlone replies
        (checkCancelled scope request (callerOptions expected cancellable observed) >>= f) w =
      match askedReply cancellable replies.cancellation false with
      | .ok cancelled => runAlone replies (f cancelled) w
      | .error e => (.error e, w) := by
  cases cancellable with
  | false => rfl
  | true =>
      unfold checkCancelled callerOptions askedReply
      cases hreply : replies.cancellation <;>
        simp [EffectWorld.answer, CallReplies.external, hreply]

/-- A raised error leaves the claim as it was. -/
theorem not_settled_of_raised {key : ClaimKey} {e : EffectError} {w : EffectWorld} :
    ¬Settled key (.error e, w) := by
  rintro ⟨⟨result, h⟩, _⟩
  cases h

section Claimed
variable (stored : w.claims.get claim.key = some claim) (claimed : claim.state = .claimed)
include stored claimed

theorem settled_recordApplied_iff (reply : Except EffectError EffectExecutionResult) :
    Settled claim.key (runAlone replies (recordApplied claim mint reply) w) ↔
      match reply with
      | .error _ => True
      | .ok result => resultRecorded claim.stageId claim.claimId claim.rowKeys result := by
  cases reply with
  | error e =>
      unfold recordApplied settleIndeterminate
      rw [settled_settle_iff _ stored claimed (by decide),
        errors_unfinished_eq_nil_iff _ _ _ _ (.inl ⟨rfl, rfl⟩)]
      simp [receiptRecorded, unconfirmedResult, EffectExecutionResult.plain]
  | ok result =>
      dsimp only [recordApplied]
      unfold resultRecorded
      by_cases hunknown : result.outcome = .indeterminate
      · rw [if_pos hunknown, if_pos hunknown, settleIndeterminate,
          settled_settle_iff _ stored claimed (by decide),
          errors_unfinished_eq_nil_iff _ _ _ _ (.inl ⟨rfl, hunknown⟩)]
      · rw [if_neg hunknown, if_neg hunknown, settled_settle_iff _ stored claimed (by decide),
          errors_completed_eq_nil_iff _ _ _ hunknown]

theorem settled_refuseDenied_iff (authorization : EffectExecutionAuthorization) :
    Settled claim.key
        (runAlone replies (refuseDenied request executor prepared claim authorization mint) w) ↔
      claim.rowKeys = none := by
  unfold refuseDenied
  rw [runAlone_abortSafely, settled_settle_iff _ stored claimed (by decide),
    errors_completed_eq_nil_iff _ _ _ (by decide)]
  cases claim.rowKeys <;>
    simp [receiptRecorded, rowsRecorded, deniedResult, EffectExecutionResult.plain]

theorem settled_dispatchClaimed_iff :
    Settled claim.key
        (runAlone replies (dispatchClaimed scope request executor
          (callerOptions expected cancellable observed) prepared claim mint) w) ↔
      SettlesWhen claim.stageId claim.claimId claim.rowKeys cancellable observed replies := by
  unfold dispatchClaimed SettlesWhen
  rw [runAlone_publishClaim]
  cases askedReply observed replies.observe () with
  | error e => simp [not_settled_of_raised]
  | ok _ =>
      dsimp only
      rw [runAlone_checkCancelled]
      cases askedReply cancellable replies.cancellation false with
      | error e => simp [not_settled_of_raised]
      | ok cancelled =>
          cases cancelled with
          | true =>
              dsimp only
              rw [if_pos rfl, runAlone_abortSafely, settled_settle_iff _ stored claimed (by decide),
                errors_unfinished_eq_nil_iff _ _ _ _ (.inr ⟨rfl, rfl⟩)]
              simp [receiptRecorded, cancelledResult, EffectExecutionResult.plain]
          | false =>
              dsimp only
              rw [if_neg (by decide)]
              by_cases hallowed : (verdict replies.authorize).allowed
              · have hrun : runAlone replies
                    (dispatchUncancelled request executor prepared claim mint) w =
                      runAlone replies (recordApplied claim mint replies.apply) w := by
                  simp [dispatchUncancelled, authorizePrepared, applyAuthorized, EffectWorld.answer,
                    CallReplies.external, hallowed]
                rw [hrun, settled_recordApplied_iff stored claimed, if_pos hallowed]
                simp
              · have hrun : runAlone replies
                    (dispatchUncancelled request executor prepared claim mint) w =
                      runAlone replies (refuseDenied request executor prepared claim
                        (verdict replies.authorize) mint) w := by
                  simp [dispatchUncancelled, authorizePrepared, EffectWorld.answer,
                    CallReplies.external, hallowed]
                rw [hrun, settled_refuseDenied_iff stored claimed, if_neg hallowed]
                simp

end Claimed

/-- What a dispatch holds after preparing. -/
def preparedReply (replies : CallReplies) (executor : EffectExecutor)
    (request : EffectDispatchRequest) : Option PreparedEffect :=
  if !executor.capabilities.supportsPrepare then some ⟨.dispatch request, none, none⟩
  else replies.prepare.toOption

theorem runAlone_prepareRequest {α : Type} (f : Option PreparedEffect → EffectProgram α) :
    runAlone replies (prepareRequest executor request >>= f) w =
      runAlone replies (f (preparedReply replies executor request)) w := by
  unfold prepareRequest preparedReply
  split
  · rfl
  · cases hreply : replies.prepare <;>
      simp [EffectWorld.answer, CallReplies.external, hreply, Except.toOption]

variable (replies scope request executor expected cancellable observed mint)

/-- Run one dispatch alone. -/
abbrev runDispatch (w : EffectWorld) : Except EffectError EffectDispatchResult × EffectWorld :=
  runAlone replies
    (dispatch scope request executor (callerOptions expected cancellable observed) mint) w

/-- Under a free key an acquisition creates the proposed claim. -/
theorem dispatchPrepared_cases (prepared : PreparedEffect)
    (fresh : w.claims.get ⟨scope.orgId, request.executor, request.idempotencyKey⟩ = none) :
    (runAlone replies (dispatchPrepared scope request executor
        (callerOptions expected cancellable observed) prepared mint) w).2.claims = w.claims ∨
      ∃ claim : EffectClaim,
        claim.toEffectClaimFields = claimFields scope request prepared mint ∧
        runAlone replies (dispatchPrepared scope request executor
            (callerOptions expected cancellable observed) prepared mint) w =
          runAlone replies (dispatchClaimed scope request executor
            (callerOptions expected cancellable observed) prepared claim mint)
            { w with claims := w.claims.put claim } := by
  unfold dispatchPrepared
  cases hvalidate : EffectClaim.modelValidate (claimFields scope request prepared mint) with
  | error errors => exact .inl rfl
  | ok claim =>
      have hfields := EffectClaim.modelValidate_eq_ok_iff.mp hvalidate
      have hfree : w.claims.get claim.key = none := by
        rw [hfields]
        exact fresh
      have hcontent : requirePersistableEffectClaim claim = .ok () := by
        simp [requirePersistableEffectClaim, hfields, claimFields]
      have hclaim : w.claims.claim claim = (.ok ⟨true, claim⟩, w.claims.put claim) := by
        simp [InMemoryEffectClaimStore.claim, hcontent, hfree]
      exact .inr ⟨claim, hfields, by simp [EffectWorld.answer, hclaim]⟩

/-- A dispatch under a free key leaves the claims alone or goes on with the claim it created. -/
theorem dispatch_cases
    (fresh : w.claims.get ⟨scope.orgId, request.executor, request.idempotencyKey⟩ = none) :
    (runDispatch replies scope request executor mint expected cancellable observed w).2.claims =
        w.claims ∨
      ∃ (prepared : PreparedEffect) (claim : EffectClaim),
        claim.toEffectClaimFields = claimFields scope request prepared mint ∧
        runDispatch replies scope request executor mint expected cancellable observed w =
          runAlone replies (dispatchClaimed scope request executor
            (callerOptions expected cancellable observed) prepared claim mint)
            { w with claims := w.claims.put claim } := by
  unfold runDispatch dispatch
  by_cases hkind : executor.kind = request.executor
  · rw [if_neg (not_not.mpr hkind), runAlone_claimGet, fresh]
    dsimp only
    unfold dispatchUnclaimed
    rw [runAlone_prepareRequest]
    cases preparedReply replies executor request with
    | none => exact .inl rfl
    | some prepared =>
        dsimp only
        by_cases hprepared : prepared.request = .dispatch request
        · rw [if_neg (not_not.mpr hprepared)]
          by_cases hdrift : preconditionDrifted prepared expected
          · rw [expectedPreconditionDigest_callerOptions, if_pos hdrift]
            exact .inl rfl
          · rw [expectedPreconditionDigest_callerOptions, if_neg hdrift]
            rcases dispatchPrepared_cases replies scope request executor mint expected cancellable
              observed prepared fresh with hsame | ⟨claim, hfields, heq⟩
            · exact .inl hsame
            · exact .inr ⟨prepared, claim, hfields, heq⟩
        · rw [if_pos hprepared]
          exact .inl rfl
  · rw [if_pos hkind]
    exact .inl rfl

/-- A dispatch that created its claim returns with the claim settled exactly when the observer
and the cancellation check reply and the record of the outcome is admissible. -/
theorem dispatch_settles_iff
    (fresh : w.claims.get ⟨scope.orgId, request.executor, request.idempotencyKey⟩ = none)
    (created : ((runDispatch replies scope request executor mint expected cancellable observed
      w).2.claims.get ⟨scope.orgId, request.executor, request.idempotencyKey⟩).isSome) :
    Settled ⟨scope.orgId, request.executor, request.idempotencyKey⟩
        (runDispatch replies scope request executor mint expected cancellable observed w) ↔
      SettlesWhen request.stageId mint.claimId request.rowKeys cancellable observed replies := by
  rcases dispatch_cases replies scope request executor mint expected cancellable observed fresh with
    hsame | ⟨prepared, claim, hfields, heq⟩
  · rw [hsame, fresh] at created
    cases created
  · have hkey : claim.key = ⟨scope.orgId, request.executor, request.idempotencyKey⟩ := by
      rw [hfields]
      rfl
    have hstored : (w.claims.put claim).get claim.key = some claim := by
      simp [InMemoryEffectClaimStore.get_put]
    have hclaimed : claim.state = .claimed := by rw [hfields]; rfl
    have hstage : claim.stageId = request.stageId := by rw [hfields]; rfl
    have hid : claim.claimId = mint.claimId := by rw [hfields]; rfl
    have hrows : claim.rowKeys = request.rowKeys := by rw [hfields]; rfl
    rw [heq, ← hkey, ← hstage, ← hid, ← hrows]
    exact settled_dispatchClaimed_iff hstored hclaimed

/-- The claim of a write that is denied. -/
def Sample.deniedClaim : PLift (((runDispatch
    (Sample.replies Sample.request false (.plain .applied "Done.")) Sample.scope Sample.request
    Sample.executor Sample.mint none true true EffectWorld.empty).2.claims.get
      ⟨"org-1", .mcp, "effect:1"⟩).isSome = true) :=
  ⟨by decide +kernel⟩

theorem dispatch_settles_iff_sample :
    Settled ⟨"org-1", .mcp, "effect:1"⟩
      (runDispatch (Sample.replies Sample.request false (.plain .applied "Done.")) Sample.scope
        Sample.request Sample.executor Sample.mint none true true EffectWorld.empty) :=
  (dispatch_settles_iff _ _ _ _ _ _ _ _ rfl Sample.deniedClaim.down).mpr ⟨rfl, rfl⟩

/-- A row-set request whose authorization is denied after its claim was created. -/
def deniedRowset : Except EffectError EffectDispatchResult × EffectWorld :=
  runDispatch (Sample.replies Sample.rowRequest false (.plain .applied "Done.")) Sample.scope
    Sample.rowRequest Sample.executor Sample.mint none true true EffectWorld.empty

def Sample.deniedRows :
    PLift ((deniedRowset.2.claims.get ⟨"org-1", .mcp, "effect:1"⟩).map (fun claim => claim.state) =
      some .claimed ∧ deniedRowset.1.toOption = none) :=
  ⟨by decide +kernel⟩

/-- Such a dispatch raises, and the claim it created under a free key stays claimed. -/
theorem denied_rowset_is_stranded :
    EffectWorld.empty.claims.get ⟨"org-1", .mcp, "effect:1"⟩ = none ∧
      (deniedRowset.2.claims.get ⟨"org-1", .mcp, "effect:1"⟩).map (fun claim => claim.state) =
        some .claimed ∧
      deniedRowset.1.toOption = none ∧ ¬Settled ⟨"org-1", .mcp, "effect:1"⟩ deniedRowset := by
  obtain ⟨hclaimed, hraised⟩ := Sample.deniedRows.down
  refine ⟨rfl, hclaimed, hraised, ?_⟩
  rintro ⟨⟨result, h⟩, _⟩
  rw [h] at hraised
  cases hraised

end Paths

end Runs

end CopilotRuntime.Effects
