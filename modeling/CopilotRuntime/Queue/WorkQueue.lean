import CopilotRuntime.Foundation.Dict
import CopilotRuntime.Foundation.Json

/-!
# The work queue

Commands wait in the order they were enqueued. A worker claims the first one
that is due and not leased, and reports it complete, failed for good, or due
again later. Statuses, attempts, due times and leases are kept apart, each by
command id.

## Implementation notes

Instants are natural numbers on one clock. A claim's generated id is not read
by the queue and is left out.
-/

namespace CopilotRuntime.Queue

open Foundation

inductive OutboxStatus
  | pending | claimed | completed | retry | deadLetter | cancelled
  deriving DecidableEq

namespace OutboxStatus

/-- A command in this status may be claimed. -/
def claimable : OutboxStatus → Bool
  | pending | retry | claimed => true
  | _ => false

/-- A command in this status was reported complete or failed for good. -/
def finished : OutboxStatus → Bool
  | completed | deadLetter => true
  | _ => false

end OutboxStatus

inductive CommandType
  | runRequested | runCancelRequested | runSteerRequested | approvalResolved
  | stageCommitRequested | effectCommitRequested | effectReconcileRequested
  | artifactEventPublishRequested
  deriving DecidableEq

/-- What the queue reads of a command, and its dump. -/
structure RuntimeCommand where
  commandId : String
  orgId : String
  runId : String
  body : Json

/-- A queued command. -/
structure QueuePayload where
  body : Json
  commandId : String
  commandType : CommandType
  orgId : String
  runId : String
  approvalId : Option String
  deriving DecidableEq

/-- A worker's lease on a command. -/
structure RuntimeWorkerClaim where
  commandId : String
  commandType : CommandType
  orgId : String
  runId : String
  approvalId : Option String
  lockedBy : String
  lockExpiresAt : Nat
  attempts : Nat
  payload : QueuePayload

/-- What a worker reports about a command. -/
structure RuntimeWorkerResult where
  commandId : String
  retryAvailableAt : Option Nat := none

structure WorkQueue where
  order : List String
  payloads : Dict String QueuePayload
  statuses : Dict String OutboxStatus
  attempts : Dict String Nat
  availableAt : Dict String Nat
  claims : Dict String RuntimeWorkerClaim

namespace WorkQueue

def empty : WorkQueue := ⟨[], .empty, .empty, .empty, .empty, .empty⟩

def payloadOf (command : RuntimeCommand) (commandType : CommandType) (approvalId : Option String) :
    QueuePayload :=
  ⟨command.body, command.commandId, commandType, command.orgId, command.runId, approvalId⟩

/-- Queue a command as pending, whether or not its id is queued already. -/
def registerCommand (q : WorkQueue) (now : Nat) (command : RuntimeCommand)
    (commandType : CommandType) (approvalId : Option String) : WorkQueue where
  order := q.order ++ [command.commandId]
  payloads := q.payloads.set command.commandId (payloadOf command commandType approvalId)
  statuses := q.statuses.set command.commandId .pending
  attempts := q.attempts.set command.commandId 0
  availableAt := q.availableAt.set command.commandId now
  claims := q.claims

def enqueueRun (q : WorkQueue) (now : Nat) (command : RuntimeCommand) : WorkQueue :=
  q.registerCommand now command .runRequested none

def enqueueCancel (q : WorkQueue) (now : Nat) (command : RuntimeCommand) : WorkQueue :=
  q.registerCommand now command .runCancelRequested none

def enqueueSteer (q : WorkQueue) (now : Nat) (command : RuntimeCommand) : WorkQueue :=
  q.registerCommand now command .runSteerRequested none

def enqueueApprovalResolved (q : WorkQueue) (now : Nat) (command : RuntimeCommand)
    (approvalId : String) : WorkQueue :=
  q.registerCommand now command .approvalResolved (some approvalId)

def enqueueStageCommit (q : WorkQueue) (now : Nat) (command : RuntimeCommand) : WorkQueue :=
  q.registerCommand now command .stageCommitRequested none

def enqueueEffectCommit (q : WorkQueue) (now : Nat) (command : RuntimeCommand) : WorkQueue :=
  q.registerCommand now command .effectCommitRequested none

/-- Queue a command unless its id is queued already; the same id for another command is an
error. -/
def enqueueOnce (commandType : CommandType) (conflict : String) (q : WorkQueue) (now : Nat)
    (command : RuntimeCommand) : Except String Bool × WorkQueue :=
  match q.payloads.get? command.commandId with
  | some existing =>
      if existing ≠ payloadOf command commandType none then (.error conflict, q)
      else (.ok false, q)
  | none => (.ok true, q.registerCommand now command commandType none)

def enqueueEffectReconcile : WorkQueue → Nat → RuntimeCommand → Except String Bool × WorkQueue :=
  enqueueOnce .effectReconcileRequested "runtime reconcile command id conflicts"

def enqueueArtifactEvent : WorkQueue → Nat → RuntimeCommand → Except String Bool × WorkQueue :=
  enqueueOnce .artifactEventPublishRequested "artifact queue command id conflicts"

/-- The command may be claimed now: it is due and no unexpired lease is recorded. -/
def available (q : WorkQueue) (now : Nat) (commandId : String) : Bool :=
  match q.statuses.get? commandId, q.availableAt.get? commandId with
  | some status, some availableAt =>
      status.claimable && decide (availableAt ≤ now) &&
        match q.claims.get? commandId with
        | some claim => decide (claim.lockExpiresAt ≤ now)
        | none => true
  | _, _ => false

/-- The claim on a queued command, with one more attempt counted. -/
def claimCommand (q : WorkQueue) (commandId workerId : String) (lockExpiresAt : Nat) :
    Option (RuntimeWorkerClaim × WorkQueue) := do
  let payload ← q.payloads.get? commandId
  let attempts ← q.attempts.get? commandId
  some ({
    commandId
    commandType := payload.commandType
    orgId := payload.orgId
    runId := payload.runId
    approvalId := payload.approvalId
    lockedBy := workerId
    lockExpiresAt
    attempts := attempts + 1
    payload }, { q with attempts := q.attempts.set commandId (attempts + 1) })

/-- Claim the first command that is available. -/
def claimNext (q : WorkQueue) (now : Nat) (workerId : String) (lockExpiresAt : Nat) :
    Option RuntimeWorkerClaim × WorkQueue :=
  match q.order.find? (q.available now) with
  | none => (none, q)
  | some commandId =>
      match q.claimCommand commandId workerId lockExpiresAt with
      | none => (none, q)
      | some (claim, counted) =>
          (some claim, { counted with
            claims := counted.claims.set commandId claim
            statuses := counted.statuses.set commandId .claimed })

/-- Record a status and forget the lease, whoever holds it. -/
def release (q : WorkQueue) (commandId : String) (status : OutboxStatus) : WorkQueue :=
  { q with
    statuses := q.statuses.set commandId status
    claims := q.claims.erase commandId }

def markComplete (q : WorkQueue) (result : RuntimeWorkerResult) : WorkQueue :=
  q.release result.commandId .completed

def markRetry (q : WorkQueue) (now : Nat) (result : RuntimeWorkerResult) : WorkQueue :=
  { q.release result.commandId .retry with
    availableAt := q.availableAt.set result.commandId (result.retryAvailableAt.getD now) }

def markDeadLetter (q : WorkQueue) (result : RuntimeWorkerResult) : WorkQueue :=
  q.release result.commandId .deadLetter

end WorkQueue

/-- A call on the queue. A report names the worker that makes it, which the queue never sees. -/
inductive QueueCall
  | enqueueRun (command : RuntimeCommand)
  | enqueueCancel (command : RuntimeCommand)
  | enqueueSteer (command : RuntimeCommand)
  | enqueueApprovalResolved (command : RuntimeCommand) (approvalId : String)
  | enqueueStageCommit (command : RuntimeCommand)
  | enqueueEffectCommit (command : RuntimeCommand)
  | enqueueEffectReconcile (command : RuntimeCommand)
  | enqueueArtifactEvent (command : RuntimeCommand)
  | claimNext (workerId : String) (lockExpiresAt : Nat)
  | markComplete (workerId : String) (result : RuntimeWorkerResult)
  | markRetry (workerId : String) (result : RuntimeWorkerResult)
  | markDeadLetter (workerId : String) (result : RuntimeWorkerResult)

inductive QueueReply
  | done
  | enqueued (result : Except String Bool)
  | claim (claim : Option RuntimeWorkerClaim)

/-- Serve one call at an instant. -/
def WorkQueue.serve (q : WorkQueue) (now : Nat) : QueueCall → QueueReply × WorkQueue
  | .enqueueRun command => (.done, q.enqueueRun now command)
  | .enqueueCancel command => (.done, q.enqueueCancel now command)
  | .enqueueSteer command => (.done, q.enqueueSteer now command)
  | .enqueueApprovalResolved command approvalId =>
      (.done, q.enqueueApprovalResolved now command approvalId)
  | .enqueueStageCommit command => (.done, q.enqueueStageCommit now command)
  | .enqueueEffectCommit command => (.done, q.enqueueEffectCommit now command)
  | .enqueueEffectReconcile command =>
      let (result, next) := q.enqueueEffectReconcile now command
      (.enqueued result, next)
  | .enqueueArtifactEvent command =>
      let (result, next) := q.enqueueArtifactEvent now command
      (.enqueued result, next)
  | .claimNext workerId lockExpiresAt =>
      let (claim, next) := q.claimNext now workerId lockExpiresAt
      (.claim claim, next)
  | .markComplete _ result => (.done, q.markComplete result)
  | .markRetry _ result => (.done, q.markRetry now result)
  | .markDeadLetter _ result => (.done, q.markDeadLetter result)

end CopilotRuntime.Queue
