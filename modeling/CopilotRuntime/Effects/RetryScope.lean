import CopilotRuntime.Effects.FoldInvariants
import CopilotRuntime.Effects.StageDecisions

/-!
# Retries of failed rows

The service that enqueues a retry and the worker that takes it up each work out the failed rows
from the stage's history. What the one enqueues the other authorises.
-/

namespace CopilotRuntime.Effects

open Foundation EffectStageFold

variable {events : List StructuralEvent} {state : EffectStageState} {a : StageAddress}
  {pins : ReviewedSnapshot} {rowKeys : List String} {basis : String}

/-- An approved stage keeps the projection binding that its approval required. -/
theorem approvalReady_of_approved (hfold : fold events = some state)
    (happroved : state.status = .approved) : state.approvalReady = true := by
  refine fold_induction (Q := fun s => s.status = .approved → s.approvalReady = true)
    (fun event _ s hopened => ?_) (fun s event _ hready => ?_) hfold happroved
  · obtain ⟨facts, _, hstate⟩ := Option.bind_eq_some_iff.mp hopened
    rw [← (validated_eq_some hstate).1]
    intro hstatus
    dsimp only [openedState] at hstatus
    split at hstatus <;> cases hstatus
  · have hstep := eventStep_applyEvent s event
    generalize applyEvent s event = s' at hstep ⊢
    cases hstep with
    | ignored | rowsDecided => exact hready
    | revised =>
        intro hstatus
        dsimp only at hstatus
        split at hstatus <;> cases hstatus
    | bound required live read current unbound =>
        intro _
        exact Bool.or_eq_true_iff.mpr (.inr current)
    | @decided d _ _ _ _ _ applies =>
        intro hstatus
        have hkind : d.decision = .approve := by
          cases hd : d.decision <;> simp [hd, statusOf] at hstatus ⊢
        simp only [decisionApplies, hkind, Bool.and_eq_true] at applies
        exact applies.2

/-- The worker authorises a retry of exactly the failed rows of the latest result. -/
theorem authorises_retryCommand (sha256 : String → String) {earlier : List StructuralEvent}
    (hfold : fold earlier = some state) {decision : EffectStageDecision} {decided failed : List String}
    (hdecision : retriableDecision state pins = some (decision, decided))
    (hfailed : latestFailedScope events basis = some failed)
    (hsame : sameElements rowKeys failed = true)
    (hdecided : rowKeys.all (decided.contains ·) = true) (governed : Option (List String)) :
    authorises state.scope events state
      (retryCommand sha256 a pins decision.ledgerId rowKeys basis governed) = true := by
  have hsound := (fold_sound hfold).1
  simp only [retriableDecision, Option.bind_eq_bind, Option.bind_eq_some_iff] at hdecision
  obtain ⟨found, hfound, keys, hkeys, hpins⟩ := hdecision
  split at hpins
  · next hmatches =>
      obtain ⟨happrove, hrevision, hproposal, htarget⟩ := hmatches
      cases hpins
      obtain ⟨hstatus, -, hdrevision, hdproposal, hdtarget⟩ := hsound.decision _ hfound
      rw [happrove] at hstatus
      have hready := approvalReady_of_approved hfold hstatus
      rw [targetDigest_currentRevision hsound] at hdtarget
      have hscope : commandRowScopeMatches events decision.rowKeys
          (retryCommand sha256 a pins decision.ledgerId rowKeys basis governed) = true := by
        unfold latestFailedScope at hfailed
        obtain ⟨latest, hlatest, hrest⟩ := Option.bind_eq_some_iff.mp hfailed
        split at hrest
        · cases hrest
        · next hledger =>
            obtain ⟨items, hitems, hrest⟩ := Option.bind_eq_some_iff.mp hrest
            obtain ⟨rows, hrows, hsome⟩ := Option.bind_eq_some_iff.mp hrest
            split at hsome
            · cases hsome
            · next hnonempty =>
                cases hsome
                simp [commandRowScopeMatches, retryCommand, hkeys, hlatest, not_not.mp hledger,
                  hitems, hrows, hnonempty, hsame]
                simpa using hdecided
      simpa [authorises, retryCommand, hstatus, statusOf, hready, hfound, happrove, hdrevision,
        hdproposal, hdtarget, hrevision, hproposal, htarget] using hscope
  · cases hpins

/-- Reading, and enqueuing what the worker authorises on the history that was read. -/
def AuthorisedRetry : EffectOp → Prop
  | .enqueueAfterDecision command => ∃ earlier later state, fold earlier = some state ∧
      authorises state.scope later state command = true
  | op => ReadingOp op

/-- A result that is a folded state comes from a history. -/
def Folded {α : Type} (stateOf : α → EffectStageState) (result : Except EffectError α) : Prop :=
  ∀ a, result = .ok a → ∃ earlier, fold earlier = some (stateOf a)

theorem ends_raised {α : Type} {stateOf : α → EffectStageState} (e : EffectError) :
    (Program.raised e : EffectProgram α).Ends (Folded stateOf) :=
  .raised fun _ h => by cases h

theorem ends_getState (scope : EffectStageScope) (stageId : String) :
    (getState scope stageId).Ends (Folded id) := by
  unfold getState readState
  split
  · rw [perform, Program.request_bind]
    refine .await fun reply => ?_
    cases reply with
    | error e => exact ends_raised _
    | ok events =>
        rw [unwrap_ok, Program.done_bind]
        cases hfolded : foldedState scope events with
        | error e => exact ends_raised _
        | ok state =>
            refine .done fun _ h => ⟨events, ?_⟩
            cases h
            exact fold_of_foldedState hfolded
  · exact ends_raised _

theorem ends_ownedStage (allowed : List EffectExecutorKind) (a : StageAddress) :
    (ownedStage allowed a).Ends (Folded OwnedStage.state) := by
  unfold ownedStage
  split
  · exact ends_raised _
  · rw [perform, Program.request_bind]
    refine .await fun reply => ?_
    cases reply with
    | error e => exact ends_raised _
    | ok found =>
        rw [unwrap_ok, Program.done_bind]
        cases found with
        | none => exact ends_raised _
        | some run =>
            dsimp only
            split
            · exact ends_raised _
            · split
              · exact ends_raised _
              · refine (ends_getState _ _).bind (fun state hstate => ?_) fun _ _ _ h => by cases h
                split
                · exact ends_raised _
                · refine .done fun _ h => ?_
                  cases h
                  exact hstate state rfl

end CopilotRuntime.Effects
