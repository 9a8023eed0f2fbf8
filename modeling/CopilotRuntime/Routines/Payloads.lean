import CopilotRuntime.Foundation.Json
import CopilotRuntime.Foundation.Table

/-!
# Store of routines

Routines, the fires recorded for them and the audit rows, in memory. A deleted routine keeps its
row.

## Implementation notes

Times are numbers of microseconds. Of the permissions of a routine only the scope of manual fires
is ever stored. Texts of objects in a payload are kept as they came.
-/

namespace CopilotRuntime.Routines

open Foundation

inductive RoutineStatus
  | draft | active | paused | errored
  deriving DecidableEq

inductive ManualFireScope
  | owner | projectMembers | tenant
  deriving DecidableEq

inductive Trigger
  | cron (spec : String) (timezone : Option String)
  | event (source eventName : String)
  | webhook (triggerId : String)
  | manual
  deriving DecidableEq

structure RoutineRecord where
  id : String
  tenantId : String
  ownerUserId : String
  projectId : Option String
  name : String
  instructions : String
  agentId : String
  agentVersionPin : Option String
  triggers : List Trigger
  connectorsScope : List (String × Json)
  behavior : List (String × Json)
  manualFire : ManualFireScope
  code : Option (List (String × Json))
  status : RoutineStatus
  pauseReason : Option String
  missedFirePolicy : String
  createdAt : Int
  updatedAt : Int
  deletedAt : Option Int := none

structure RoutineFireRecord where
  id : String
  tenantId : String
  routineId : String
  triggerKind : String
  firedAt : Int
  status : String := "queued"

structure RoutineAuditRecord where
  tenantId : String
  actorUserId : String
  action : String
  targetId : String
  beforeState : Option (List (String × Json)) := none
  afterState : Option (List (String × Json)) := none

structure RoutinesStore where
  routines : Table RoutineRecord.id
  fires : List RoutineFireRecord
  audits : List RoutineAuditRecord

namespace RoutinesStore

def empty : RoutinesStore := ⟨.empty, [], []⟩

variable (s : RoutinesStore)

def insertRoutine (record : RoutineRecord) : RoutinesStore :=
  { s with routines := s.routines.put record }

def getRoutine (tenantId routineId : String) : Option RoutineRecord :=
  (s.routines.find? routineId).filter fun record =>
    record.tenantId = tenantId && record.deletedAt.isNone

def updateRoutine (record : RoutineRecord) : RoutinesStore :=
  { s with routines := s.routines.put record }

def softDeleteRoutine (tenantId routineId : String) (now : Int) : RoutinesStore :=
  match s.routines.find? routineId with
  | none => s
  | some record =>
      if record.tenantId ≠ tenantId ∨ record.deletedAt.isSome then s
      else { s with routines := s.routines.put { record with deletedAt := some now } }

/-- A live routine of an owner that is active. -/
def countsAsActive (tenantId ownerUserId : String) (r : RoutineRecord) : Bool :=
  r.tenantId = tenantId && r.ownerUserId = ownerUserId && r.status = .active &&
    r.deletedAt.isNone

def countActiveForUser (tenantId ownerUserId : String) : Nat :=
  s.routines.count (countsAsActive tenantId ownerUserId)

def insertFire (record : RoutineFireRecord) : RoutinesStore :=
  { s with fires := s.fires ++ [record] }

def appendAudit (record : RoutineAuditRecord) : RoutinesStore :=
  { s with audits := s.audits ++ [record] }

end RoutinesStore

end CopilotRuntime.Routines

/-!
# Payloads of routines

What a payload must be for a routine to be made of it, and for a stored one to be changed by it.

## Implementation notes

A value that a set cannot be asked for, a list or an object, is an error of its type. A number is
only ever compared with zero.
-/

namespace CopilotRuntime.Routines

open Foundation

inductive RoutineError
  | routineNotFound (routineId : String)
  | routineForbidden (routineId : String)
  | routineInvalidRequest (code : String)
  | routineInvalidTransition (message : String)
  | routineQuotaExceeded (message : String)
  | typeError
  /-- A record cannot be built of the values, or cannot be dumped. -/
  | validationError
  | serializationError
  deriving DecidableEq

def invalid {α : Type} (code : String) : Except RoutineError α :=
  .error (.routineInvalidRequest code)

/-! ### Values of fields -/

def require (condition : Prop) [Decidable condition] (code : String) : Except RoutineError Unit :=
  if condition then .ok () else invalid code

/-- One of some texts, and what it stands for. -/
def oneOf {α : Type} (values : List (String × α)) (code : String) : Json → Except RoutineError α
  | .str text =>
      match values.lookup text with
      | some value => .ok value
      | none => invalid code
  | .arr _ | .obj _ => .error .typeError
  | _ => invalid code

/-- A text that is not blank, without the blanks around it. -/
def nonBlank (code : String) : Option Json → Except RoutineError String
  | some (.str text) => if Text.strip text = "" then invalid code else .ok (Text.strip text)
  | _ => invalid code

def optionalText (code : String) : Json → Except RoutineError (Option String)
  | .null => .ok none
  | .str text => .ok (some text)
  | _ => invalid code

def fieldsOf (code : String) : Json → Except RoutineError (List (String × Json))
  | .obj fields => .ok fields
  | _ => invalid code

def optionalFields (code : String) : Json → Except RoutineError (Option (List (String × Json)))
  | .null => .ok none
  | .obj fields => .ok (some fields)
  | _ => invalid code

/-- The value counts as false. -/
def isFalsy : Json → Bool
  | .null | .bool false | .int 0 | .str "" | .arr [] | .obj [] => true
  | _ => false

/-- The value, or an empty object in place of one that is missing or counts as false. -/
def orEmpty : Option Json → Json
  | none => .obj []
  | some value => if isFalsy value then .obj [] else value

def statuses : List (String × RoutineStatus) :=
  [("draft", .draft), ("active", .active), ("paused", .paused), ("errored", .errored)]

def manualFireScopes : List (String × ManualFireScope) :=
  [("owner", .owner), ("project_members", .projectMembers), ("tenant", .tenant)]

def missedFirePolicies : List (String × String) :=
  [("fire_once", "fire_once"), ("fire_all", "fire_all"), ("skip", "skip")]

def pauseReasons : List (String × String) :=
  [("manual", "manual"), ("permission_shrinkage", "permission_shrinkage"), ("error", "error")]

inductive TriggerKind
  | cron | event | webhook | manual

def triggerKinds : List (String × TriggerKind) :=
  [("cron", .cron), ("event", .event), ("webhook", .webhook), ("manual", .manual)]

def validateName : Option Json → Except RoutineError String
  | some (.str name) =>
      if Text.strip name = "" then invalid "name_required"
      else if 80 < name.length then invalid "name_too_long"
      else .ok (Text.strip name)
  | _ => invalid "name_required"

def validateInstructions : Json → Except RoutineError String
  | .str instructions =>
      if 16384 < instructions.length then invalid "instructions_too_long" else .ok instructions
  | _ => invalid "instructions_invalid"

def validateTrigger : Json → Except RoutineError Trigger
  | .obj trigger => do
      let kind ← oneOf triggerKinds "trigger_kind_invalid"
        ((Json.lookup trigger "kind").getD .null)
      match kind with
      | .cron => do
          let spec ← nonBlank "cron_spec_required" (Json.lookup trigger "spec")
          let timezone ← optionalText "cron_timezone_invalid"
            ((Json.lookup trigger "timezone").getD .null)
          return .cron spec (timezone.filter (· ≠ ""))
      | .event => do
          let source ← nonBlank "event_source_required" (Json.lookup trigger "source")
          let eventName ← nonBlank "event_name_required" (Json.lookup trigger "event_name")
          return .event source eventName
      | .webhook => do
          let triggerId ← nonBlank "webhook_trigger_id_required"
            (Json.lookup trigger "trigger_id")
          return .webhook triggerId
      | .manual => return .manual
  | _ => invalid "trigger_invalid"

def validateTriggers : Json → Except RoutineError (List Trigger)
  | .arr triggers => triggers.mapM validateTrigger
  | _ => invalid "triggers_invalid"

def validateManualFire : Json → Except RoutineError ManualFireScope :=
  oneOf manualFireScopes "manual_fire_scope_invalid"

/-- The scope of a project's members needs a project. -/
def requireProject (manualFire : ManualFireScope) (projectId : Option String) :
    Except RoutineError Unit :=
  if manualFire = .projectMembers ∧ projectId.all (· = "") then
    invalid "manual_fire_project_members_requires_project"
  else .ok ()

/-! ### New routines -/

structure ValidatedRoutine where
  name : String
  instructions : String
  agentId : String
  agentVersionPin : Option String
  triggers : List Trigger
  connectorsScope : List (String × Json)
  behavior : List (String × Json)
  manualFire : ManualFireScope
  code : Option (List (String × Json))
  missedFirePolicy : String
  projectId : Option String
  status : Json
  pauseReason : Json

def validateCreatePayload (payload : List (String × Json)) :
    Except RoutineError ValidatedRoutine := do
  let name ← validateName (Json.lookup payload "name")
  let instructions ← validateInstructions ((Json.lookup payload "instructions").getD (.str ""))
  let agentId ← nonBlank "agent_id_required" (Json.lookup payload "agent_id")
  let triggers ← validateTriggers ((Json.lookup payload "triggers").getD (.arr []))
  let permissions ← fieldsOf "permissions_invalid" (orEmpty (Json.lookup payload "permissions"))
  let manualFire ← validateManualFire ((Json.lookup permissions "manual_fire").getD (.str "owner"))
  let missedFirePolicy ← oneOf missedFirePolicies "missed_fire_policy_invalid"
    ((Json.lookup payload "missed_fire_policy").getD (.str "fire_once"))
  let projectId ← optionalText "project_id_invalid"
    ((Json.lookup payload "project_id").getD .null)
  requireProject manualFire projectId
  let agentVersionPin ← optionalText "agent_version_pin_invalid"
    ((Json.lookup payload "agent_version_pin").getD .null)
  let code ← optionalFields "code_invalid" ((Json.lookup payload "code").getD .null)
  let connectorsScope ← fieldsOf "connectors_scope_invalid"
    (orEmpty (Json.lookup payload "connectors_scope"))
  let behavior ← fieldsOf "behavior_invalid" (orEmpty (Json.lookup payload "behavior"))
  return {
    name := name, instructions := instructions, agentId := agentId,
    agentVersionPin := agentVersionPin, triggers := triggers, connectorsScope := connectorsScope,
    behavior := behavior, manualFire := manualFire, code := code,
    missedFirePolicy := missedFirePolicy, projectId := projectId,
    status := (Json.lookup payload "status").getD (.str "draft"),
    pauseReason := (Json.lookup payload "pause_reason").getD .null }

/-- What is raised for a payload that is not an object, which is first asked for a name in it. -/
def notFields : Json → RoutineError
  | .str text =>
      if Text.contains text "connectors_scope" then .typeError
      else .routineInvalidRequest "invalid_payload"
  | .arr items =>
      if .str "connectors_scope" ∈ items then .typeError
      else .routineInvalidRequest "invalid_payload"
  | _ => .typeError

/-! ### Changes -/

structure RoutineUpdates where
  name : Option String
  instructions : Option String
  agentId : Option String
  agentVersionPin : Option (Option String)
  triggers : Option (List Trigger)
  connectorsScope : Option (List (String × Json))
  behavior : Option (List (String × Json))
  manualFire : Option ManualFireScope
  missedFirePolicy : Option String
  projectId : Option (Option String)
  code : Option (Option (List (String × Json)))
  status : Option RoutineStatus
  pauseReason : Option (Option String)

/-- Check a value that is there. -/
def checkField {α : Type} (validate : Json → Except RoutineError α) :
    Option Json → Except RoutineError (Option α)
  | none => .ok none
  | some value => (validate value).map some

/-- Statuses that a routine may go to. -/
def allowedTransitions : RoutineStatus → List RoutineStatus
  | .draft => [.draft, .active]
  | .active => [.active, .paused, .errored]
  | .paused => [.paused, .active, .draft, .errored]
  | .errored => [.errored, .draft]

def RoutineStatus.text : RoutineStatus → String
  | draft => "draft"
  | active => "active"
  | paused => "paused"
  | errored => "errored"

/-- In these statuses a routine may have a reason for its pause. -/
def RoutineStatus.IsPause (status : RoutineStatus) : Prop := status = paused ∨ status = errored

instance : DecidablePred RoutineStatus.IsPause :=
  fun _ => inferInstanceAs (Decidable (_ ∨ _))

/-- The scope that a patch asks for; it is checked against the project that the patch names, which
is itself checked later, or the stored one. -/
def validatePermissions (existing : RoutineRecord) (patch : List (String × Json))
    (permissions : Json) : Except RoutineError ManualFireScope := do
  let fields ← fieldsOf "permissions_invalid" (orEmpty (some permissions))
  match Json.lookup fields "manual_fire" with
  | none => return existing.manualFire
  | some value => do
      let manualFire ← validateManualFire value
      let targetProject := (Json.lookup patch "project_id").getD (Json.ofOption existing.projectId)
      require (¬ (manualFire = .projectMembers ∧ isFalsy targetProject))
        "manual_fire_project_members_requires_project"
      return manualFire

def validateTransition (existing : RoutineRecord) (value : Json) :
    Except RoutineError RoutineStatus := do
  let status ← oneOf statuses "status_invalid" value
  if status ∈ allowedTransitions existing.status then return status
  else .error (.routineInvalidTransition
    ("transition_not_allowed:" ++ existing.status.text ++ "->" ++ status.text))

/-- The reason that a patch gives; nothing is always allowed. -/
def validatePauseReason (target : RoutineStatus) : Json → Except RoutineError (Option String)
  | .null => .ok none
  | value => do
      let reason ← oneOf pauseReasons "pause_reason_invalid" value
      require target.IsPause "pause_reason_requires_paused_or_errored"
      return some reason

/-- What becomes of the reason when a patch does not give one. -/
def defaultPauseReason (status : Option RoutineStatus) : Option (Option String) :=
  match status with
  | none => none
  | some status => if status.IsPause then none else some none

def validatePatchPayload (existing : RoutineRecord) (patch : List (String × Json)) :
    Except RoutineError RoutineUpdates := do
  let name ← checkField (fun value => validateName (some value)) (Json.lookup patch "name")
  let instructions ← checkField validateInstructions (Json.lookup patch "instructions")
  let agentId ← checkField (fun value => nonBlank "agent_id_required" (some value))
    (Json.lookup patch "agent_id")
  let agentVersionPin ← checkField (optionalText "agent_version_pin_invalid")
    (Json.lookup patch "agent_version_pin")
  let triggers ← checkField validateTriggers (Json.lookup patch "triggers")
  let connectorsScope ← checkField (fieldsOf "connectors_scope_invalid")
    (Json.lookup patch "connectors_scope")
  let behavior ← checkField (fieldsOf "behavior_invalid") (Json.lookup patch "behavior")
  let manualFire ← checkField (validatePermissions existing patch)
    (Json.lookup patch "permissions")
  let missedFirePolicy ← checkField (oneOf missedFirePolicies "missed_fire_policy_invalid")
    (Json.lookup patch "missed_fire_policy")
  let projectId ← checkField (optionalText "project_id_invalid") (Json.lookup patch "project_id")
  let code ← checkField (optionalFields "code_invalid") (Json.lookup patch "code")
  let status ← checkField (validateTransition existing) (Json.lookup patch "status")
  let pauseReason ← checkField (validatePauseReason (status.getD existing.status))
    (Json.lookup patch "pause_reason")
  return {
    name := name, instructions := instructions, agentId := agentId,
    agentVersionPin := agentVersionPin, triggers := triggers, connectorsScope := connectorsScope,
    behavior := behavior, manualFire := manualFire, missedFirePolicy := missedFirePolicy,
    projectId := projectId, code := code, status := status,
    pauseReason := pauseReason <|> defaultPauseReason status }

def RoutineUpdates.apply (updates : RoutineUpdates) (updatedAt : Int) (r : RoutineRecord) :
    RoutineRecord :=
  { r with
    name := updates.name.getD r.name
    instructions := updates.instructions.getD r.instructions
    agentId := updates.agentId.getD r.agentId
    agentVersionPin := updates.agentVersionPin.getD r.agentVersionPin
    triggers := updates.triggers.getD r.triggers
    connectorsScope := updates.connectorsScope.getD r.connectorsScope
    behavior := updates.behavior.getD r.behavior
    manualFire := updates.manualFire.getD r.manualFire
    missedFirePolicy := updates.missedFirePolicy.getD r.missedFirePolicy
    projectId := updates.projectId.getD r.projectId
    code := updates.code.getD r.code
    status := updates.status.getD r.status
    pauseReason := updates.pauseReason.getD r.pauseReason
    updatedAt := updatedAt }

end CopilotRuntime.Routines
