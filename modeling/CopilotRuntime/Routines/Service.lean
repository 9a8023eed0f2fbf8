import CopilotRuntime.Routines.Payloads

/-!
# The routines service

Who may read, change and fire a routine, and what each call writes. Every call first makes its
checks, which read the store only, and then its writes.

## Implementation notes

What a call reads of its surroundings comes in with it: the time, the ids that are drawn, who is a
member of which project, and the connectors that a project allows. How a record is dumped is a
parameter; a dump may raise.
-/

namespace CopilotRuntime.Routines

open Foundation

structure RoutinesService where
  activeQuota : Nat
  modelDump : RoutineRecord → Option (List (String × Json))

/-- The surroundings of a call. -/
structure Surroundings where
  now : Int
  routineId : String
  fireId : String
  isProjectMember : String → String → String → Bool
  /-- The connectors that a project allows, as its reader sees them. -/
  fetchConnectorAllowlist : String → String → String → Option (List String)

def isAdmin (callerRoles : List String) : Bool :=
  callerRoles.any fun role => role = "admin" || role = "owner"

/-- The audit text of a dumped field: of instructions only the length is kept. -/
def redacted : String × Json → String × Json
  | (name, .str text) =>
      if name = "instructions" ∧ text ≠ "" then
        (name, .obj [("redacted", .bool true), ("length", .int text.length)])
      else (name, .str text)
  | field => field

def actionForTransition (before after : RoutineStatus) : String :=
  if before = after then "routine.updated"
  else match after with
    | .active => "routine.activated"
    | .paused => "routine.paused"
    | .errored => "routine.errored"
    | .draft => "routine.reset_to_draft"

structure Caller where
  tenantId : String
  userId : String
  roles : List String

section Service
variable (service : RoutinesService) (around : Surroundings) (caller : Caller)

def safeDump (record : RoutineRecord) : Except RoutineError (List (String × Json)) :=
  match service.modelDump record with
  | none => .error .serializationError
  | some fields => .ok (fields.map redacted)

def canRead (record : RoutineRecord) : Bool :=
  record.ownerUserId = caller.userId || isAdmin caller.roles ||
    match record.projectId with
    | none => false
    | some projectId => around.isProjectMember record.tenantId projectId caller.userId

def canManualFire (record : RoutineRecord) : Bool :=
  record.ownerUserId = caller.userId ||
    match record.manualFire, record.projectId with
    | .tenant, _ => true
    | .projectMembers, some projectId =>
        around.isProjectMember record.tenantId projectId caller.userId
    | _, _ => false

/-- The routine of an id, as the caller may read it. -/
def readRoutine (routineId : String) (s : RoutinesStore) : Except RoutineError RoutineRecord :=
  match s.getRoutine caller.tenantId routineId with
  | none => .error (.routineNotFound routineId)
  | some existing =>
      if canRead around caller existing then .ok existing
      else .error (.routineNotFound routineId)

def ownRoutine (routineId : String) (s : RoutinesStore) : Except RoutineError RoutineRecord := do
  let existing ← readRoutine around caller routineId s
  if existing.ownerUserId = caller.userId then return existing
  else .error (.routineForbidden routineId)

/-- A routine may become active only below the quota of its owner. -/
def checkQuota (activates : Prop) [Decidable activates] (s : RoutinesStore) :
    Except RoutineError Unit :=
  if activates ∧ service.activeQuota ≤ s.countActiveForUser caller.tenantId caller.userId then
    .error (.routineQuotaExceeded
      ("active_routine_quota_exceeded:" ++ toString service.activeQuota))
  else .ok ()

/-- A list of texts, as the values of the scope of connectors must be. -/
def isTexts : Json → Bool
  | .arr items => items.all fun item => match item with
      | .str _ => true
      | _ => false
  | _ => false

/-- The connectors of a new routine: those of its project where the payload names none. -/
def inheritedScope (payload : List (String × Json)) (validated : ValidatedRoutine) :
    List (String × Json) :=
  match (Json.lookup payload "connectors_scope").getD .null, validated.projectId with
  | .null, some projectId =>
      match around.fetchConnectorAllowlist caller.tenantId caller.userId projectId with
      | some allowlist => allowlist.eraseDups.map fun slug => (slug, .arr [])
      | none => validated.connectorsScope
  | _, _ => validated.connectorsScope

def readPauseReason : Json → Except RoutineError (Option String)
  | .null => .ok none
  | .str reason => .ok (some reason)
  | _ => .error .validationError

/-- Build the record; its reason must be a text or nothing, and its scope name lists of texts. -/
def buildRoutine (validated : ValidatedRoutine) (status : RoutineStatus)
    (connectorsScope : List (String × Json)) : Except RoutineError RoutineRecord := do
  let pauseReason ← readPauseReason validated.pauseReason
  if connectorsScope.all fun field => isTexts field.2 then
    return {
      id := around.routineId, tenantId := caller.tenantId, ownerUserId := caller.userId,
      projectId := validated.projectId, name := validated.name,
      instructions := validated.instructions, agentId := validated.agentId,
      agentVersionPin := validated.agentVersionPin, triggers := validated.triggers,
      connectorsScope := connectorsScope, behavior := validated.behavior,
      manualFire := validated.manualFire, code := validated.code, status := status,
      pauseReason := pauseReason, missedFirePolicy := validated.missedFirePolicy,
      createdAt := around.now, updatedAt := around.now }
  else .error .validationError

def newRoutine (payload : Json) (s : RoutinesStore) : Except RoutineError RoutineRecord :=
  match payload with
  | .obj payload => do
      let validated ← validateCreatePayload payload
      let status ← oneOf statuses "invalid_status" validated.status
      checkQuota service caller (status = .active) s
      buildRoutine around caller validated status (inheritedScope around caller payload validated)
  | payload => .error (notFields payload)

/-- The row is stored before it is dumped for the audit. -/
def createRoutine (payload : Json) (s : RoutinesStore) :
    Except RoutineError RoutineRecord × RoutinesStore :=
  match newRoutine service around caller payload s with
  | .error e => (.error e, s)
  | .ok record =>
      let s := s.insertRoutine record
      match safeDump service record with
      | .error e => (.error e, s)
      | .ok afterState => (.ok record, s.appendAudit {
          tenantId := caller.tenantId, actorUserId := caller.userId, action := "routine.created",
          targetId := record.id, afterState := some afterState })

/-- What an update stores, and the audit row for it. -/
def patchedRoutine (routineId : String) (patch : Json) (s : RoutinesStore) :
    Except RoutineError (RoutineRecord × RoutineAuditRecord) := do
  let existing ← ownRoutine around caller routineId s
  let patch ← fieldsOf "invalid_payload" patch
  let updates ← validatePatchPayload existing patch
  let record := updates.apply around.now existing
  checkQuota service caller (record.status = .active ∧ existing.status ≠ .active) s
  let beforeState ← safeDump service existing
  let afterState ← safeDump service record
  return (record, {
    tenantId := caller.tenantId, actorUserId := caller.userId,
    action := actionForTransition existing.status record.status, targetId := record.id,
    beforeState := some beforeState, afterState := some afterState })

def updateRoutine (routineId : String) (patch : Json) (s : RoutinesStore) :
    Except RoutineError RoutineRecord × RoutinesStore :=
  match patchedRoutine service around caller routineId patch s with
  | .error e => (.error e, s)
  | .ok (record, audit) => (.ok record, (s.updateRoutine record).appendAudit audit)

def deleteRoutine (routineId : String) (s : RoutinesStore) :
    Except RoutineError Unit × RoutinesStore :=
  match ownRoutine around caller routineId s >>= safeDump service with
  | .error e => (.error e, s)
  | .ok beforeState =>
      (.ok (), (s.softDeleteRoutine caller.tenantId routineId around.now).appendAudit {
        tenantId := caller.tenantId, actorUserId := caller.userId, action := "routine.deleted",
        targetId := routineId, beforeState := some beforeState })

def firedRoutine (routineId : String) (s : RoutinesStore) : Except RoutineError RoutineRecord := do
  let existing ← readRoutine around caller routineId s
  if canManualFire around caller existing then
    if existing.status = .errored then .error (.routineInvalidTransition "routine_errored")
    else return existing
  else .error (.routineForbidden routineId)

def manualFire (routineId : String) (s : RoutinesStore) :
    Except RoutineError RoutineFireRecord × RoutinesStore :=
  match firedRoutine around caller routineId s with
  | .error e => (.error e, s)
  | .ok _ =>
      let fire : RoutineFireRecord := {
        id := around.fireId, tenantId := caller.tenantId, routineId := routineId,
        triggerKind := "manual", firedAt := around.now }
      (.ok fire, (s.insertFire fire).appendAudit {
        tenantId := caller.tenantId, actorUserId := caller.userId,
        action := "routine.manual_fired", targetId := routineId,
        afterState := some [("fire_id", .str fire.id), ("trigger_kind", .str fire.triggerKind)] })

end Service

/-! ### Calls -/

inductive RoutineRequest
  | create (payload : Json)
  | update (routineId : String) (patch : Json)
  | delete (routineId : String)
  | fire (routineId : String)

structure RoutineCall where
  caller : Caller
  around : Surroundings
  request : RoutineRequest

/-- What a call raises, if it does, and what it leaves behind. -/
def takeCall (service : RoutinesService) (call : RoutineCall) (s : RoutinesStore) :
    Option RoutineError × RoutinesStore :=
  let raised {α : Type} : Except RoutineError α → Option RoutineError
    | .error e => some e
    | .ok _ => none
  match call.request with
  | .create payload =>
      (createRoutine service call.around call.caller payload s).map raised id
  | .update routineId patch =>
      (updateRoutine service call.around call.caller routineId patch s).map raised id
  | .delete routineId => (deleteRoutine service call.around call.caller routineId s).map raised id
  | .fire routineId => (manualFire call.around call.caller routineId s).map raised id

end CopilotRuntime.Routines
