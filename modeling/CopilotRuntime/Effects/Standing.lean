import CopilotRuntime.Effects.HeldRows

/-!
# Standing decisions
-/

namespace CopilotRuntime.Effects

open Foundation EffectStageFold

/-- No stage moves back: what was decided of a revision stands until a later revision. -/
def DecisionsStand (w w' : EffectWorld) : Prop :=
  ∀ runId stageId s, fold (w.ledger.stageEvents runId stageId) = some s →
    ∃ s', fold (w'.ledger.stageEvents runId stageId) = some s' ∧ Later s s'

/-- Whatever programs run, however their steps interleave, decisions stand. -/
theorem decisions_stand {α Call : Type} {body : Call → EffectProgram α} {w trace pool}
    (run : Run body EffectWorld.env w trace pool) (ordered : w.ledger.Ordered) :
    DecisionsStand w pool.shared := by
  have hgrows : pool.shared.ledger.Ordered ∧ ∀ r t,
      w.ledger.stageEvents r t <+: pool.shared.ledger.stageEvents r t := by
    induction run with
    | nil => exact ⟨ordered, fun _ _ => List.prefix_rfl⟩
    | snoc _ step ih =>
        cases step with
        | start | stop => exact ih
        | perform _ effect =>
            obtain ⟨hnext, hstep⟩ := EffectWorld.ledger_grows effect ih.1
            exact ⟨hnext, fun _ _ => (ih.2 _ _).trans (hstep _ _)⟩
  intro _ _ _
  exact later_of_prefix (hgrows.2 _ _) (hgrows.1.stageEvents_increasing _ _)

theorem decisions_stand_sample :
    DecisionsStand Sample.reviewedWorld Sample.quietReviews.2.shared :=
  decisions_stand (Run.play (EffectWorld.answer_sound _) _) Sample.reviewedWorld_ordered

end CopilotRuntime.Effects
