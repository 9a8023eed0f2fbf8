import CopilotRuntime.ModelInvocation.Resuming

/-!
# How a model call closes its invocation

A call that goes on from failed attempts, or from nothing, closes the invocation:
no record is refused, every admitted attempt has its usage, and the totals of the
one terminal record are the sums of those.
-/

namespace CopilotRuntime.ModelInvocation

open Foundation Foundation.Program EventJournalModelInvocationStore ModelInvocationMiddleware

variable {prepared : PreparedAuthority} {entry : Entry} {world : World} {account : Account}
  {terminal : ModelInvocationRecord}

/-- The terminal records of a journal. -/
def Journal.terminals (journal : Journal) : Journal :=
  journal.filter fun record => Journal.isTerminal [record]

/-- The totals of a terminal record are the sums of the usage records. -/
def TotalsReconcile (journal : Journal) : ModelInvocationRecord → Prop
  | .completed record =>
      TotalsMatch journal record.totalInputTokens record.totalOutputTokens record.totalCostMicrousd
  | .failed record =>
      TotalsMatch journal record.totalInputTokens record.totalOutputTokens record.totalCostMicrousd
  | _ => False

/-- The journal has one terminal record and the usage of every attempt, and they reconcile. -/
structure BooksClosed (journal : Journal) : Prop where
  terminal : ∃ record, journal.terminals = [record] ∧ TotalsReconcile journal record
  usage : ∀ identity ∈ journal.admitted, ∃ usage,
    journal.usages.filter (fun record => record.attemptId = identity.attemptId) = [usage]

/-- A call of the middleware that made the calls of the provider ends with closed books. -/
structure CallCloses (world : World) (calls : List ProviderCall)
    (result : Except ModelInvocationError ModelResponse) (after : World) : Prop where
  accepted : after.refused = world.refused
  books : BooksClosed after.journal
  completed : (∃ record, ModelInvocationRecord.completed record ∈ after.journal) ↔
    ∃ response, result = .ok response
  returned : ∀ response, result = .ok response →
    ∃ call ∈ calls.getLast?, call.behaviour.ending = .ok response
  raised : calls ≠ [] → ∀ error, result = .error error → ∃ call ∈ calls.getLast?,
    ∃ raised, call.behaviour.ending = .error raised ∧ error = .provider raised

/-! ### A concluded journal -/

theorem Tells.usagesOf {journal : Journal} (h : Tells prepared journal account)
    (hcoherent : account.Coherent prepared.routePlan) {attempt : Attempt}
    (hmem : attempt ∈ account.attempts) :
    journal.usages.filter (fun record => record.attemptId = attempt.id) = attempt.usage.toList := by
  have husages : journal.usages = account.attempts.flatMap fun attempt => attempt.usage.toList := by
    rw [h.usages, List.filterMap_eq_flatMap_toList]
  rw [husages]
  apply filter_flatMap_of_nodup Attempt.id (fun record : AttemptUsageRecord => record.attemptId)
    (fun attempt => attempt.usage.toList) _ (nodup_ids hcoherent.history) hmem
  intro other hother record hrecord
  rw [(numbered_of_mem hcoherent.history hother).usage record (Option.mem_toList.mp hrecord)]

/-- What the store asked of the terminal record. -/
theorem Told.terminal_valid (h : Told prepared world account)
    (hends : Journal.isTerminal [terminal] = true) (hvalid : ValidNext world.journal terminal) :
    UsageCoversAttempts world.journal ∧ TotalsReconcile world.journal terminal := by
  rw [h.tells.validNext_iff] at hvalid
  cases terminal with
  | completed record =>
      obtain ⟨-, -, hcovers, -, htotals⟩ := hvalid
      exact ⟨hcovers, htotals⟩
  | failed record =>
      obtain ⟨-, -, -, hcovers, -, htotals⟩ := hvalid
      exact ⟨hcovers, htotals⟩
  | _ => cases hends

theorem Journal.terminals_eq_nil {journal : Journal} (h : journal.isTerminal = false) :
    journal.terminals = [] := by
  rw [Journal.terminals, List.filter_eq_nil_iff]
  intro record hmem
  rw [Journal.isTerminal, List.any_cons, List.any_nil, Bool.or_false]
  exact List.any_eq_false.mp h record hmem

theorem usages_terminal (hends : Journal.isTerminal [terminal] = true) :
    Journal.usages [terminal] = [] ∧ Journal.admissions [terminal] = [] := by
  cases terminal with
  | completed record => exact ⟨rfl, rfl⟩
  | failed record => exact ⟨rfl, rfl⟩
  | _ => cases hends

theorem TotalsReconcile.congr {journal later : Journal} (h : TotalsReconcile journal terminal)
    (husages : later.usages = journal.usages) : TotalsReconcile later terminal := by
  cases terminal with
  | completed record =>
      rw [TotalsReconcile, TotalsMatch, husages]
      exact h
  | failed record =>
      rw [TotalsReconcile, TotalsMatch, husages]
      exact h
  | _ => exact h

theorem Concluded.books (h : Concluded prepared terminal world) : BooksClosed world.journal := by
  obtain ⟨account, told, hends, hvalid⟩ := h
  rename_i before
  obtain ⟨hcovers, htotals⟩ := told.terminal_valid hends hvalid
  obtain ⟨hnoUsage, hnoAdmission⟩ := usages_terminal hends
  have husages : (before.appended terminal).journal.usages = before.journal.usages := by
    rw [World.appended_journal, Journal.usages_append, hnoUsage, List.append_nil]
  constructor
  · refine ⟨terminal, ?_, htotals.congr husages⟩
    rw [World.appended_journal, Journal.terminals, List.filter_append]
    show before.journal.terminals ++ _ = _
    rw [Journal.terminals_eq_nil told.tells.underway, List.nil_append]
    exact List.filter_eq_self.mpr fun record hmem => List.mem_singleton.mp hmem ▸ hends
  · intro identity hidentity
    have hadmitted : (before.appended terminal).journal.admitted = before.journal.admitted := by
      rw [Journal.admitted, World.appended_journal, Journal.admissions_append, hnoAdmission,
        List.append_nil]
      rfl
    rw [hadmitted, told.tells.admitted told.coherent] at hidentity
    obtain ⟨attempt, hmem, rfl⟩ := List.mem_map.mp hidentity
    have hsome := (told.tells.usageCovers_iff told.coherent).mp hcovers attempt hmem
    obtain ⟨usage, husage⟩ := Option.isSome_iff_exists.mp hsome
    refine ⟨usage, ?_⟩
    rw [husages]
    have hfiltered := told.tells.usagesOf told.coherent hmem
    rw [husage] at hfiltered
    exact hfiltered

theorem Concluded.completed_iff (h : Concluded prepared terminal world) :
    (∃ record, ModelInvocationRecord.completed record ∈ world.journal) ↔
      ∃ record, terminal = .completed record := by
  obtain ⟨account, told, hends, hvalid⟩ := h
  rename_i before
  have hopen : ∀ record, ModelInvocationRecord.completed record ∉ before.journal := by
    intro record hmem
    exact List.any_eq_false.mp told.tells.underway _ hmem rfl
  constructor
  · rintro ⟨record, hmem⟩
    rcases List.mem_append.mp hmem with hmem | hmem
    · exact absurd hmem (hopen record)
    · exact ⟨record, (List.mem_singleton.mp hmem).symm⟩
  · rintro ⟨record, rfl⟩
    exact ⟨record, List.mem_append_right _ (List.mem_singleton_self _)⟩

/-! ### Calls -/

theorem Closes.callCloses {calls : List ProviderCall} {lastError : Option ProviderError}
    {result : Except ModelInvocationError ModelResponse} {after : World}
    (h : Closes prepared world calls lastError result after) :
    CallCloses world calls result after where
  accepted := h.refused
  books := by
    have hconcluded := h.concluded
    cases result with
    | ok response =>
        obtain ⟨terminal, hterminal⟩ := hconcluded
        exact hterminal.books
    | error error =>
        obtain ⟨terminal, hterminal⟩ := hconcluded
        exact hterminal.books
  completed := by
    have hconcluded := h.concluded
    cases result with
    | ok response =>
        obtain ⟨terminal, hterminal⟩ := hconcluded
        rw [hterminal.completed_iff]
        exact iff_of_true ⟨terminal, rfl⟩ ⟨response, rfl⟩
    | error error =>
        obtain ⟨terminal, hterminal⟩ := hconcluded
        rw [hterminal.completed_iff]
        apply iff_of_false
        · rintro ⟨record, ⟨⟩⟩
        · rintro ⟨response, ⟨⟩⟩
  returned := h.returned
  raised := by
    intro hsome error herror
    exact (h.raised error herror).resolve_right fun hnone => hsome hnone.1

/-- A call that finds no attempt under way, in a journal that it can go on from, closes the
invocation if each attempt it makes meets what an attempt has to. -/
theorem call_closes (h : Reachable prepared world) (entry : Entry)
    (hopen : world.journal.isTerminal = false) (hidle : world.journal.unfailed = [])
    (hresumable : Resumable entry.binding prepared.routePlan world.journal) :
    ∃ calls, (enter entry prepared world).2.calls = world.calls ++ calls ∧
      ((∀ call ∈ calls, Meets entry.binding prepared.routePlan call) →
        CallCloses world calls (enter entry prepared world).1 (enter entry prepared world).2) := by
  cases enter_entered h entry with
  | unprojectable hjournal hinvalid hcalls hunderway =>
      rw [hjournal, resumable_nil] at hresumable
      exact absurd hresumable.2 hinvalid
  | planned recorded hjournal hprojectable hcalls hrefused htold hattempted =>
      rw [hjournal, resumable_nil] at hresumable
      obtain ⟨calls, hmade, hcloses⟩ :=
        hattempted.proceeds (htold.proceeds_first.mpr hresumable.1)
      refine ⟨calls, hcalls ▸ hmade, fun hmeets => ?_⟩
      obtain ⟨haccepted, hbooks, hcompleted, hreturned, hraised⟩ := (hcloses hmeets).callCloses
      exact ⟨haccepted.trans hrefused, hbooks, hcompleted, hreturned, hraised⟩
  | partly hplanned hrefuses => exact absurd hresumable (hplanned.not_resumable entry.binding)
  | cancelled account last htold hlast hunderway hcancelled hrefuses =>
      have hmem := (htold.unfailed_of_last hlast hunderway).mpr rfl
      rw [hidle] at hmem
      cases hmem
  | abandoned account last htold hlast hunderway huncancelled habandons =>
      have hmem := (htold.unfailed_of_last hlast hunderway).mpr rfl
      rw [hidle] at hmem
      cases hmem
  | attempted account htold hfailed hattempted =>
      rw [htold.resumable_iff hfailed] at hresumable
      obtain ⟨calls, hmade, hcloses⟩ :=
        hattempted.proceeds ((htold.proceeds_iff hfailed).mpr hresumable)
      exact ⟨calls, hmade, fun hmeets => (hcloses hmeets).callCloses⟩
  | closed hterminal hresult hsame =>
      rw [hopen] at hterminal
      cases hterminal

theorem limited_recordable : Recordable limited := by
  constructor
  · show limited.observed.state.terminalState ≠ some .completed
    decide
  · decide

theorem limited_meets (number : Nat) :
    Meets soleBinding soleAuthority.routePlan ⟨⟨number⟩, soleRoute, none, limited⟩ where
  recordable := limited_recordable
  steady := fun _ => ⟨rfl, rfl⟩
  resolves := fun _ _ => rfl

theorem call_closes_limited : CallCloses .empty [⟨⟨1⟩, soleRoute, none, limited⟩,
    ⟨⟨2⟩, soleRoute, none, limited⟩] (enter (answering limited) soleAuthority .empty).1
      (enter (answering limited) soleAuthority .empty).2 := by
  obtain ⟨calls, hcalls, hcloses⟩ := call_closes .empty (answering limited) rfl rfl
    ((resumable_nil soleBinding soleAuthority.routePlan).mpr ⟨by decide, by decide⟩)
  have hmade : calls = [⟨⟨1⟩, soleRoute, none, limited⟩, ⟨⟨2⟩, soleRoute, none, limited⟩] :=
    hcalls.symm
  subst hmade
  apply hcloses
  intro call hmem
  rcases List.mem_cons.mp hmem with rfl | hmem
  · exact limited_meets 1
  · rw [List.mem_singleton.mp hmem]
    exact limited_meets 2

def greeting : Message := ⟨.text "hi", [], none, none⟩

/-- The stream ends, and then the handler is cancelled. -/
def raisesLate : ProviderBehaviour :=
  ⟨[.onChatModelStart, .onLlmEnd [greeting]], .error ⟨"CancelledError", .cancelled⟩, 1⟩

/-- The cancelled call leaves its invocation open, without the usage of its attempt. -/
theorem raisesLate_stays_open :
    (enter (answering raisesLate) soleAuthority .empty).2.calls.length = 1 ∧
      (enter (answering raisesLate) soleAuthority .empty).2.journal.admitted.length = 1 ∧
      (enter (answering raisesLate) soleAuthority .empty).2.journal.usages = [] ∧
      ¬ BooksClosed (enter (answering raisesLate) soleAuthority .empty).2.journal := by
  refine ⟨by decide, by decide, by decide, ?_⟩
  rintro ⟨⟨record, hterminals, -⟩, -⟩
  have hnone : (enter (answering raisesLate) soleAuthority .empty).2.journal.terminals = [] :=
    Journal.terminals_eq_nil (by decide)
  rw [hnone] at hterminals
  cases hterminals

end CopilotRuntime.ModelInvocation
