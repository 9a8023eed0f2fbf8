import CopilotRuntime.Effects.Contracts
import CopilotRuntime.Foundation.Dict

/-!
# Durable effect claims

A claim is the persistent boundary between preparing an effect and applying
it. Every stored claim has passed its field validators and the cross-field
rule relating state, outcome, receipt and row results.

## Implementation notes

Only writers that supply the proposal content reference are modelled, so the
normalisation of records from before that field existed never applies.
-/

namespace CopilotRuntime.Effects

open Foundation

inductive EffectClaimState
  | claimed | completed | indeterminate | cancelled
  deriving DecidableEq

def EffectClaimState.value : EffectClaimState → String
  | .claimed => "claimed"
  | .completed => "completed"
  | .indeterminate => "indeterminate"
  | .cancelled => "cancelled"

/-- The data of a claim before validation. -/
structure EffectClaimFields where
  orgId : String
  runId : String
  stageId : String
  revision : Nat
  claimId : String
  idempotencyKey : String
  executor : EffectExecutorKind
  proposalDigest : String
  targetDigest : String
  state : EffectClaimState
  attempt : Nat
  preparedRef : Option String
  receiptRef : Option String
  outcome : Option EffectOutcome
  resultDigest : Option String
  safeMessage : Option String
  targetRef : String
  proposalRef : String
  proposalContentRef : Option String
  actor : EffectActor
  decisionLedgerId : String
  rowKeys : Option (List String)
  rowResults : Option (List WriteAppliedRowResult)
  createdAt : String
  updatedAt : String
  deriving DecidableEq

/-- A short single-line message, as both the claim and the dispatcher require. -/
def isSafeMessage (s : String) : Bool :=
  !Text.isBlank s && !Text.hasChar s '\n' && !Text.hasChar s '\r' && s.length ≤ 512

namespace EffectClaimFields

/-- Errors of the fields that no later transition of the claim changes. -/
def requestErrors (r : EffectClaimFields) : List FieldError :=
  fieldErrors "org_id" [minLength 1 r.orgId, maxLength 255 r.orgId] ++
  fieldErrors "run_id" [minLength 1 r.runId, maxLength 255 r.runId] ++
  fieldErrors "stage_id"
    [⟨!r.stageId.isEmpty && r.stageId.length ≤ 255 && isOpaqueToken r.stageId,
      "stage_id must be a stable opaque identifier"⟩] ++
  fieldErrors "revision" [positive r.revision] ++
  fieldErrors "claim_id"
    [⟨isClaimIdText r.claimId, "claim_id must be a lower-case token without traversal"⟩] ++
  fieldErrors "idempotency_key"
    [⟨isStableKey r.idempotencyKey, "idempotency_key must be a stable opaque key"⟩] ++
  fieldErrors "proposal_digest" [sha256Hex r.proposalDigest] ++
  fieldErrors "target_digest" [sha256Hex r.targetDigest] ++
  fieldErrors "attempt" [positive r.attempt] ++
  fieldErrors "prepared_ref" (optionalChecks r.preparedRef fun ref =>
    [maxLength maxReferenceLength ref, safeOpaqueUriCheck "effect claim reference" false ref]) ++
  fieldErrors "target_ref" [safeOpaqueUriCheck "effect claim reference" false r.targetRef] ++
  fieldErrors "proposal_ref"
    [safeOpaqueUriCheck "effect claim proposal reference" false r.proposalRef] ++
  fieldErrors "proposal_content_ref" (optionalChecks r.proposalContentRef fun ref =>
    [maxLength maxReferenceLength ref, safeOpaqueUriCheck "proposal_content_ref" true ref]) ++
  fieldErrors "decision_ledger_id"
    [minLength 1 r.decisionLedgerId, maxLength 255 r.decisionLedgerId] ++
  fieldErrors "row_keys" (optionalChecks r.rowKeys fun keys =>
    [⟨!keys.isEmpty && keys.Nodup && keys.all fun key => !key.isEmpty && key.length ≤ 256,
      "row_keys must contain unique row keys"⟩])

/-- Errors of the fields a completion fills in. -/
def resultErrors (r : EffectClaimFields) : List FieldError :=
  fieldErrors "receipt_ref" (optionalChecks r.receiptRef fun ref =>
    [maxLength maxReferenceLength ref, receiptRefCheck ref]) ++
  fieldErrors "result_digest" (optionalChecks r.resultDigest fun digest => [sha256Hex digest]) ++
  fieldErrors "safe_message" (optionalChecks r.safeMessage fun message =>
    [⟨isSafeMessage message, "safe_message must be a short single-line message"⟩])

/-- The claim's stage and revision agree with a canonical proposal reference. -/
def proposalChecks (r : EffectClaimFields) : List Check :=
  if Text.startsWith r.stageId "stg_" || Text.startsWith r.proposalRef "proposal://" then
    [⟨ProposalUriCodec.parse r.proposalRef == some ⟨r.stageId, r.revision⟩,
      "proposal_ref must reference this stage and revision"⟩]
  else []

/-- Each state admits only its own outcomes. -/
def outcomeCheck (r : EffectClaimFields) : Check :=
  match r.state with
  | .claimed => ⟨r.outcome == none, "a claimed effect cannot have a terminal outcome"⟩
  | .completed =>
      ⟨r.outcome != none && r.outcome != some .indeterminate,
        "a completed effect requires a certain outcome"⟩
  | .indeterminate =>
      ⟨r.outcome == some .indeterminate, "an indeterminate claim must record indeterminate"⟩
  | .cancelled =>
      ⟨r.outcome == some .cancelled, "a cancelled claim must record cancelled"⟩

def receiptChecks (r : EffectClaimFields) : List Check :=
  optionalChecks r.receiptRef fun ref =>
    [⟨EffectReceiptRefCodec.parse ref == some ⟨r.stageId, r.claimId⟩,
      "receipt_ref must reference this stage and claim"⟩]

/-- The results name every key once and nothing else. -/
def coversExactly (results : List WriteAppliedRowResult) (keys : List String) : Bool :=
  let named := results.map fun item => item.rowKey
  !named.isEmpty && named.Nodup && named.all (keys.contains ·) && keys.all (named.contains ·)

def rowResultChecks (r : EffectClaimFields) : List Check :=
  optionalChecks r.rowResults fun results =>
    [⟨(r.rowKeys.any fun keys => coversExactly results keys) && r.state == .completed,
      "row_results must exactly cover one completed row-key scope"⟩]

def completedRowSetCheck (r : EffectClaimFields) : Check :=
  ⟨!(r.state == .completed && r.rowKeys != none && r.rowResults == none),
    "a completed row-set claim requires exact row outcomes"⟩

/-- The cross-field rule, in the order its parts are checked. -/
def stateIsConsistent (r : EffectClaimFields) : List FieldError :=
  fieldErrors "" (r.proposalChecks ++ [r.outcomeCheck] ++ r.receiptChecks ++ r.rowResultChecks ++
    [r.completedRowSetCheck])

/-- Field errors, or else the error of the cross-field rule. -/
def errors (r : EffectClaimFields) : List FieldError :=
  match r.requestErrors ++ r.resultErrors with
  | [] => r.stateIsConsistent
  | found => found

theorem errors_eq_nil_iff (r : EffectClaimFields) :
    r.errors = [] ↔ r.requestErrors = [] ∧ r.resultErrors = [] ∧ r.stateIsConsistent = [] := by
  unfold errors
  cases h : r.requestErrors ++ r.resultErrors with
  | nil =>
      obtain ⟨h₁, h₂⟩ := List.append_eq_nil_iff.mp h
      simp [h₁, h₂]
  | cons error rest =>
      have hne : ¬(r.requestErrors = [] ∧ r.resultErrors = []) := by
        rw [← List.append_eq_nil_iff, h]
        simp
      simp only [List.cons_ne_nil, false_iff]
      exact fun hall => hne ⟨hall.1, hall.2.1⟩

end EffectClaimFields

/-- A claim that has passed every validator. -/
structure EffectClaim extends EffectClaimFields where
  valid : toEffectClaimFields.errors = []
  deriving DecidableEq

namespace EffectClaim

/-- Validate claim data, or report what is wrong with it. -/
def modelValidate (r : EffectClaimFields) : Except (List FieldError) EffectClaim :=
  if h : r.errors = [] then .ok ⟨r, h⟩ else .error r.errors

theorem modelValidate_eq_ok_iff {r : EffectClaimFields} {claim : EffectClaim} :
    modelValidate r = .ok claim ↔ claim.toEffectClaimFields = r := by
  unfold modelValidate
  split
  · next h =>
      constructor
      · intro heq
        cases heq
        rfl
      · rintro rfl
        rfl
  · next h =>
      simp only [reduceCtorEq, false_iff]
      rintro rfl
      exact h claim.valid

/-- Two claims describe the same approved external mutation. -/
def sameRequestAs (a b : EffectClaim) : Bool :=
  a.orgId == b.orgId && a.runId == b.runId && a.stageId == b.stageId &&
    a.revision == b.revision && a.idempotencyKey == b.idempotencyKey &&
    a.executor == b.executor && a.proposalDigest == b.proposalDigest &&
    a.targetDigest == b.targetDigest && a.targetRef == b.targetRef &&
    a.proposalRef == b.proposalRef && a.proposalContentRef == b.proposalContentRef &&
    a.actor == b.actor && a.decisionLedgerId == b.decisionLedgerId && a.rowKeys == b.rowKeys

end EffectClaim

inductive EffectClaimError
  | conflict | notFound | invalidTransition | storage
  deriving DecidableEq

namespace EffectClaimError

def code : EffectClaimError → String
  | conflict => "effect_claim_conflict"
  | notFound => "effect_claim_not_found"
  | invalidTransition => "effect_claim_invalid_transition"
  | storage => "effect_claim_storage_error"

def safeMessage : EffectClaimError → String
  | conflict => "This effect idempotency key belongs to a different approved request."
  | notFound => "The effect attempt is no longer available."
  | invalidTransition => "The effect attempt cannot move to that state."
  | storage => "The effect attempt lacks an immutable proposal content reference."

end EffectClaimError

/-- The states a claim may move to. -/
def allowedStates : EffectClaimState → List EffectClaimState
  | .claimed => [.claimed, .completed, .indeterminate, .cancelled]
  | .indeterminate => [.indeterminate, .completed]
  | .cancelled => [.cancelled]
  | .completed => [.completed]

/-- The monotonic transition every store checks before writing. -/
def validateClaimTransition (previous replacement : EffectClaim) : Except EffectClaimError Unit :=
  if previous.orgId != replacement.orgId || previous.executor != replacement.executor ||
      previous.idempotencyKey != replacement.idempotencyKey ||
      previous.claimId != replacement.claimId || !previous.sameRequestAs replacement ||
      previous.createdAt != replacement.createdAt then
    .error .invalidTransition
  else if !(allowedStates previous.state).contains replacement.state then
    .error .invalidTransition
  else if (previous.state == .completed || previous.state == .cancelled) &&
      replacement != previous then
    .error .invalidTransition
  else if previous.state == .indeterminate && replacement.state == .indeterminate &&
      replacement != previous then
    .error .invalidTransition
  else .ok ()

/-- A claim without an immutable content reference can never be acquired. -/
def requirePersistableEffectClaim (claim : EffectClaim) : Except EffectClaimError Unit :=
  if claim.proposalContentRef = none then .error .storage else .ok ()

end CopilotRuntime.Effects

/-!
# The in-memory claim store

The store keeps one claim for each organisation, executor and idempotency key,
and a second index by claim id. Acquisition creates the claim or returns the
existing one in a single step; a key that has been acquired is never released.
-/

namespace CopilotRuntime.Effects

open Foundation

/-- The unique identity of an effect attempt. -/
structure ClaimKey where
  orgId : String
  executor : EffectExecutorKind
  idempotencyKey : String
  deriving DecidableEq

def EffectClaimFields.key (c : EffectClaimFields) : ClaimKey :=
  ⟨c.orgId, c.executor, c.idempotencyKey⟩

/-- The result of acquiring a claim. -/
structure EffectClaimAcquisition where
  created : Bool
  claim : EffectClaim

structure InMemoryEffectClaimStore where
  byKey : Dict ClaimKey EffectClaim
  byClaimId : Dict (String × String) EffectClaim

namespace InMemoryEffectClaimStore

def empty : InMemoryEffectClaimStore := ⟨Dict.empty, Dict.empty⟩

def get (s : InMemoryEffectClaimStore) (k : ClaimKey) : Option EffectClaim := s.byKey.get? k

def getByClaimId (s : InMemoryEffectClaimStore) (orgId claimId : String) : Option EffectClaim :=
  s.byClaimId.get? (orgId, claimId)

/-- Write one claim under both indexes. -/
def put (s : InMemoryEffectClaimStore) (c : EffectClaim) : InMemoryEffectClaimStore :=
  ⟨s.byKey.set c.key c, s.byClaimId.set (c.orgId, c.claimId) c⟩

/-- Create the claim, or return the existing claim of the same request. -/
def claim (s : InMemoryEffectClaimStore) (c : EffectClaim) :
    Except EffectClaimError EffectClaimAcquisition × InMemoryEffectClaimStore :=
  match requirePersistableEffectClaim c with
  | .error e => (.error e, s)
  | .ok _ =>
      match s.get c.key with
      | none => (.ok ⟨true, c⟩, s.put c)
      | some existing =>
          if existing.sameRequestAs c then (.ok ⟨false, existing⟩, s)
          else (.error .conflict, s)

/-- Replace a stored claim by a legal transition of it. -/
def update (s : InMemoryEffectClaimStore) (c : EffectClaim) :
    Except EffectClaimError EffectClaim × InMemoryEffectClaimStore :=
  match s.get c.key with
  | none => (.error .notFound, s)
  | some previous =>
      if previous.claimId != c.claimId then (.error .notFound, s)
      else match validateClaimTransition previous c with
        | .error e => (.error e, s)
        | .ok _ => (.ok c, s.put c)

theorem get_put (s : InMemoryEffectClaimStore) (c : EffectClaim) (k : ClaimKey) :
    (s.put c).get k = if c.key = k then some c else s.get k :=
  Dict.get?_set s.byKey c.key c k

/-- Writing a claim never removes another key. -/
theorem isSome_get_put {s : InMemoryEffectClaimStore} {k : ClaimKey}
    (h : (s.get k).isSome) (c : EffectClaim) : ((s.put c).get k).isSome :=
  Dict.isSome_get?_set h c.key c

/-- Acquisition either creates the claim under a free key or leaves the store as it is. -/
theorem claim_cases (s : InMemoryEffectClaimStore) (c : EffectClaim) :
    (s.get c.key = none ∧ s.claim c = (.ok ⟨true, c⟩, s.put c)) ∨
      ((∃ existing, s.get c.key = some existing ∧ existing.sameRequestAs c = true ∧
          s.claim c = (.ok ⟨false, existing⟩, s)) ∨
        ∃ e, s.claim c = (.error e, s)) := by
  unfold claim
  cases requirePersistableEffectClaim c with
  | error e => exact .inr (.inr ⟨e, rfl⟩)
  | ok _ =>
      cases hget : s.get c.key with
      | none => exact .inl ⟨rfl, rfl⟩
      | some existing =>
          by_cases hsame : existing.sameRequestAs c
          · exact .inr (.inl ⟨existing, rfl, hsame, by simp [hsame]⟩)
          · exact .inr (.inr ⟨.conflict, by simp [hsame]⟩)

/-- An update writes one claim over its predecessor or leaves the store as it is. -/
theorem update_cases (s : InMemoryEffectClaimStore) (c : EffectClaim) :
    (∃ previous, s.get c.key = some previous ∧ previous.claimId = c.claimId ∧
        validateClaimTransition previous c = .ok () ∧ s.update c = (.ok c, s.put c)) ∨
      ∃ e, s.update c = (.error e, s) := by
  unfold update
  cases hget : s.get c.key with
  | none => exact .inr ⟨.notFound, rfl⟩
  | some previous =>
      by_cases hid : previous.claimId = c.claimId
      · cases hstep : validateClaimTransition previous c with
        | error e => exact .inr ⟨e, by simp [hid, hstep]⟩
        | ok _ => exact .inl ⟨previous, rfl, hid, hstep, by simp [hid, hstep]⟩
      · exact .inr ⟨.notFound, by simp [hid]⟩

/-- An acquired key is never released. -/
theorem isSome_get_claim {s : InMemoryEffectClaimStore} {k : ClaimKey}
    (h : (s.get k).isSome) (c : EffectClaim) : ((s.claim c).2.get k).isSome := by
  rcases claim_cases s c with ⟨_, heq⟩ | ⟨_, _, _, heq⟩ | ⟨e, heq⟩ <;> rw [heq]
  · exact isSome_get_put h c
  · exact h
  · exact h

theorem isSome_get_update {s : InMemoryEffectClaimStore} {k : ClaimKey}
    (h : (s.get k).isSome) (c : EffectClaim) : ((s.update c).2.get k).isSome := by
  rcases update_cases s c with ⟨_, _, _, _, heq⟩ | ⟨e, heq⟩ <;> rw [heq]
  · exact isSome_get_put h c
  · exact h

end InMemoryEffectClaimStore

end CopilotRuntime.Effects
