import CopilotRuntime.ModelInvocation.Middleware

/-!
# Entries of a model call

A model call may be entered any number of times, one entry after the other. The
journal is what an entry finds of the entries before it; an entry may stop after
any of its awaits.
-/

namespace CopilotRuntime.ModelInvocation

open Foundation Foundation.Program

/-- What is given to one entry of a model call. The provider may answer anything. -/
structure Entry where
  binding : ModelInvocationRuntimeBinding
  provider : AttemptId → ModelRouteEntry → ProviderBehaviour

/-- One call of the provider's handler. -/
structure ProviderCall where
  attemptId : AttemptId
  route : ModelRouteEntry
  handoff : Option PromptCacheFallbackHandoff
  behaviour : ProviderBehaviour

/-- The journal, the calls of the handler so far, and the records that the store refused. -/
structure World where
  journal : Journal
  calls : List ProviderCall
  refused : List ModelInvocationRecord := []

def World.empty : World := ⟨[], [], []⟩

def World.appended (world : World) (record : ModelInvocationRecord) : World :=
  { world with journal := world.journal ++ [record] }

@[simp] theorem World.appended_journal (world : World) (record : ModelInvocationRecord) :
    (world.appended record).journal = world.journal ++ [record] := rfl

def World.refusing (world : World) (record : ModelInvocationRecord) : World :=
  { world with refused := world.refused ++ [record] }

def serve (entry : Entry) :
    (operation : InvocationOperation) → World → operation.Reply × World
  | .append record, world =>
      match EventJournalModelInvocationStore.append world.journal record with
      | .ok journal => (.ok (), { world with journal })
      | .error error => (.error error, world.refusing record)
  | .listForRun, world => (EventJournalModelInvocationStore.listForRun world.journal, world)
  | .invoke attemptId route, world =>
      let behaviour := entry.provider attemptId route
      (behaviour, { world with
        calls := world.calls ++ [⟨attemptId, route, entry.binding.currentHandoff, behaviour⟩] })

abbrev entered (entry : Entry) (prepared : PreparedAuthority) : InvocationProgram ModelResponse :=
  ModelInvocationMiddleware.awrapModelCall entry.binding prepared

/-- An entry that runs to its end. -/
def enter (entry : Entry) (prepared : PreparedAuthority) (world : World) :
    Except ModelInvocationError ModelResponse × World :=
  runWith (serve entry) (entered entry prepared) world

/-- Entries with the same authority, each of which stopped somewhere, lead to the world. -/
inductive Reachable (prepared : PreparedAuthority) : World → Prop
  | empty : Reachable prepared .empty
  | entry {world : World} (entry : Entry) (awaits : Nat) (before : Reachable prepared world) :
      Reachable prepared (runFor (serve entry) awaits (entered entry prepared) world).2

end CopilotRuntime.ModelInvocation
