import CopilotRuntime.Foundation.Interruption
import CopilotRuntime.Todos.Materializer

/-!
# Ticks that may die

A tick that has got anywhere has processed the first of the series that it claimed.
-/

namespace CopilotRuntime.Todos

open Foundation Program

variable {library : RuleLibrary} {now : Int} {s s' s'' : TodosStore}
  {claimed more : List TodoSeriesRecord} {series : TodoSeriesRecord}

/-- What a tick does for a series. -/
def Processed (library : RuleLibrary) (now : Int) (series : TodoSeriesRecord)
    (s s' : TodosStore) : Prop :=
  match dueDay library now series with
  | .error _ => False
  | .ok none => s' = s
  | .ok (some due) =>
      match s.findTodoBySeriesDue series.tenantId series.id due.isoformat with
      | some _ => s' = (s.updateSeriesLastMaterialized series.id (anchorDatetime due)).2
      | none => ∃ id, s.todos.find? id = none ∧
          s' = (TodosStore.answer id (.materialize (materializedTodo series due.isoformat)
            series.id (anchorDatetime due) (materializeAudit series)) s).2

inductive ProcessedAll (library : RuleLibrary) (now : Int) :
    List TodoSeriesRecord → TodosStore → TodosStore → Prop
  | nil (s : TodosStore) : ProcessedAll library now [] s s
  | cons {series : TodoSeriesRecord} {more : List TodoSeriesRecord} {s s' s'' : TodosStore}
      (first : Processed library now series s s') (rest : ProcessedAll library now more s' s'') :
      ProcessedAll library now (series :: more) s s''

/-- Every series that is claimed at the time can be evaluated: its rule is usable or not, but no
day on the way is beyond the calendar. -/
def Evaluates (library : RuleLibrary) (now : Int) (s : TodosStore) : Prop :=
  ∀ series ∈ s.claimDueSeries now, dueDay library now series ≠ .error .overflowError

theorem mem_claimDueSeries :
    series ∈ s.claimDueSeries now ↔ series ∈ s.series.rows ∧ series.endsAt.all (now < ·) := by
  rw [TodosStore.claimDueSeries, List.mem_insertionSort, List.mem_filter]

/-- Only overflows get out of the evaluation of a series. -/
theorem error_of_dueDay {e : EvaluatorError} (h : dueDay library now series = .error e) :
    e = .overflowError := by
  have hdate {t : Int} {e : EvaluatorError} (h : utcDate t = .error e) : e = .overflowError := by
    unfold utcDate at h
    split at h
    · cases h
    · exact (Except.error.inj h).symm
  unfold dueDay at h
  cases hanchor : seriesAnchorDate series with
  | error e' =>
      rw [hanchor] at h
      obtain rfl := Except.error.inj h
      exact hdate hanchor
  | ok anchor =>
      rw [hanchor] at h
      rw [ok_bind] at h
      split at h
      · cases h
      · exact (Except.error.inj h).symm
      · cases htoday : utcDate now with
        | error e' =>
            rw [htoday] at h
            obtain rfl := Except.error.inj h
            exact hdate htoday
        | ok today =>
            rw [htoday] at h
            cases h

theorem dueDay_of_evaluates (h : Evaluates library now s)
    (hseries : series ∈ s.claimDueSeries now) : ∃ due, dueDay library now series = .ok due := by
  cases hdue : dueDay library now series with
  | ok due => exact ⟨due, rfl⟩
  | error e =>
      obtain rfl := error_of_dueDay hdue
      exact absurd hdue (h series hseries)

/-- The first of the series have been processed, all of them at the end, and nothing was raised. -/
def GotTo (library : RuleLibrary) (now : Int) (claimed : List TodoSeriesRecord) (count : Nat)
    (s : TodosStore) (rest : TodoProgram MaterializeOutcome) (s' : TodosStore) : Prop :=
  ∃ processed, processed <+: claimed ∧ ProcessedAll library now processed s s' ∧
    (∀ e, rest ≠ .raised e) ∧ ∀ outcome, rest = .done outcome →
      processed = claimed ∧ outcome.seriesProcessed = count + claimed.length

theorem gotTo_await {op : TodoOp} {resume : op.Reply → TodoProgram MaterializeOutcome}
    (count : Nat) : GotTo library now claimed count s (.await op resume) s :=
  ⟨[], List.nil_prefix, .nil s, nofun, nofun⟩

variable {rest : TodoProgram MaterializeOutcome}

theorem GotTo.cons {count : Nat} (first : Processed library now series s s')
    (h : GotTo library now more (count + 1) s' rest s'') :
    GotTo library now (series :: more) count s rest s'' := by
  obtain ⟨processed, hpre, hall, hraised, hdone⟩ := h
  refine ⟨series :: processed, List.cons_prefix_cons.mpr ⟨rfl, hpre⟩, .cons first hall, hraised,
    fun outcome hrest => ?_⟩
  obtain ⟨rfl, hcount⟩ := hdone outcome hrest
  refine ⟨rfl, ?_⟩
  rw [hcount, List.length_cons]
  omega

/-- Wherever a tick gets to, it has processed the first of the series, and it does not raise. -/
theorem gotTo_materializeAll {outcome : MaterializeOutcome}
    (hdue : ∀ series ∈ claimed, ∃ due, dueDay library now series = .ok due)
    (h : Reaches TodosStore.env (materializeAll library now claimed outcome) s rest s') :
    GotTo library now claimed outcome.seriesProcessed s rest s' := by
  induction claimed generalizing outcome s with
  | nil =>
      cases h with
      | here =>
          refine ⟨[], List.prefix_rfl, .nil _, nofun, fun outcome' hdone => ?_⟩
          cases hdone
          exact ⟨rfl, rfl⟩
  | cons series more ih =>
      obtain ⟨⟨due, hseries⟩, hmore⟩ := List.forall_mem_cons.mp hdue
      rw [materializeAll, materializeSeries, hseries] at h
      cases due with
      | none =>
          refine .cons ?_ (ih hmore h)
          rw [Processed, hseries]
      | some due =>
          cases h with
          | here => exact gotTo_await _
          | await effect onward =>
              obtain ⟨id, -, hanswer⟩ := effect
              obtain ⟨hreply, hstate⟩ := Prod.mk.inj hanswer
              rw [hreply, hstate] at onward
              cases hfound : s.findTodoBySeriesDue series.tenantId series.id due.isoformat with
              | some existing =>
                  rw [hfound] at onward
                  cases onward with
                  | here => exact gotTo_await _
                  | await effect onward =>
                      obtain ⟨id, -, hanswer⟩ := effect
                      refine .cons ?_ (ih hmore onward)
                      simp only [Processed, hseries, hfound]
                      exact congrArg Prod.snd hanswer
              | none =>
                  rw [hfound] at onward
                  cases onward with
                  | here => exact gotTo_await _
                  | await effect onward =>
                      obtain ⟨id, hfresh, hanswer⟩ := effect
                      refine .cons ?_ (ih hmore onward)
                      simp only [Processed, hseries, hfound]
                      exact ⟨id, hfresh, congrArg Prod.snd hanswer⟩

/-- Wherever a tick gets to when the claimed series can be evaluated, it has processed the first of
them. -/
theorem gotTo_materializeDueSeries (hevaluates : Evaluates library now s)
    (h : Reaches TodosStore.env (materializeDueSeries library now) s rest s') :
    GotTo library now (s.claimDueSeries now) 0 s rest s' := by
  cases h with
  | here => exact gotTo_await _
  | await effect onward =>
      obtain ⟨id, -, hanswer⟩ := effect
      obtain ⟨rfl, rfl⟩ := Prod.mk.inj hanswer
      exact gotTo_materializeAll (fun series hseries => dueDay_of_evaluates hevaluates hseries)
        onward

end CopilotRuntime.Todos

/-!
# Each occurrence once

The todos that ticks have made for a series are for the first of its occurrences.
-/

namespace CopilotRuntime.Todos

open Foundation Program

variable {library : RuleLibrary} {now : Int} {s₀ s s' : TodosStore} {last : Option Int}
  {series row : TodoSeriesRecord} {anchor : Date} {k : Nat}

/-- The occurrences after a day, a number of them or as many as there are. -/
def occurrences (library : RuleLibrary) (series : TodoSeriesRecord) : Nat → Date → List Date
  | 0, _ => []
  | k + 1, anchor =>
      match nextDue library series.rule series.spec anchor with
      | .ok due => due :: occurrences library series k due
      | .error _ => []

/-- The day of the last of some occurrences. -/
def reachedDay (library : RuleLibrary) (series : TodoSeriesRecord) (k : Nat) (anchor : Date) :
    Date :=
  (occurrences library series k anchor).getLastD anchor

theorem occurrences_of_next {first : Date}
    (h : nextDue library series.rule series.spec anchor = .ok first) (k : Nat) :
    occurrences library series (k + 1) anchor = first :: occurrences library series k first := by
  rw [occurrences, h]

theorem occurrences_of_error {e : EvaluatorError}
    (h : nextDue library series.rule series.spec anchor = .error e) (k : Nat) :
    occurrences library series k anchor = [] := by
  cases k with
  | zero => rfl
  | succ k => rw [occurrences, h]

theorem reachedDay_succ {first : Date}
    (h : nextDue library series.rule series.spec anchor = .ok first) :
    reachedDay library series (k + 1) anchor = reachedDay library series k first := by
  rw [reachedDay, occurrences_of_next h, List.getLastD_cons, reachedDay]

variable {due : Date}

/-- One more occurrence is the next one after the last. -/
theorem occurrences_succ (hlength : (occurrences library series k anchor).length = k)
    (h : nextDue library series.rule series.spec (reachedDay library series k anchor) = .ok due) :
    occurrences library series (k + 1) anchor = occurrences library series k anchor ++ [due] := by
  induction k generalizing anchor with
  | zero => exact occurrences_of_next h 0
  | succ k ih =>
      cases hnext : nextDue library series.rule series.spec anchor with
      | error e =>
          rw [occurrences_of_error hnext] at hlength
          cases hlength
      | ok first =>
          rw [reachedDay_succ hnext] at h
          rw [occurrences_of_next hnext, List.length_cons, Nat.add_right_cancel_iff] at hlength
          rw [occurrences_of_next hnext, occurrences_of_next hnext, ih hlength h,
            List.cons_append]

theorem ordinal_le_reachedDay :
    anchor.ordinal ≤ (reachedDay library series k anchor).ordinal := by
  induction k generalizing anchor with
  | zero => exact Nat.le_refl _
  | succ k ih =>
      cases hnext : nextDue library series.rule series.spec anchor with
      | error e =>
          rw [reachedDay, occurrences_of_error hnext]
          exact Nat.le_refl _
      | ok first =>
          rw [reachedDay_succ hnext]
          exact (Nat.le_of_lt (lt_nextDue hnext)).trans ih

/-- No occurrence is after the last one. -/
theorem le_reachedDay_of_mem (h : due ∈ occurrences library series k anchor) :
    due.ordinal ≤ (reachedDay library series k anchor).ordinal := by
  induction k generalizing anchor with
  | zero => cases h
  | succ k ih =>
      cases hnext : nextDue library series.rule series.spec anchor with
      | error e =>
          rw [occurrences_of_error hnext] at h
          cases h
      | ok first =>
          rw [reachedDay_succ hnext]
          rw [occurrences_of_next hnext] at h
          obtain rfl | hlater := List.mem_cons.mp h
          · exact ordinal_le_reachedDay
          · exact ih hlater

/-! ### Progress of a series -/

/-- The todos that came in since. -/
def cameIn (s₀ s : TodosStore) : List TodoRecord := s.todos.rows.drop s₀.todos.rows.length

/-- The days for which todos of a series came in, in order. -/
def createdDues (s₀ s : TodosStore) (seriesId : String) : List (Option String) :=
  ((cameIn s₀ s).filter fun t => t.seriesId = some seriesId).map TodoRecord.due

/-- The series had no live todo for the day. -/
def Open (s₀ : TodosStore) (series : TodoSeriesRecord) (due : Date) : Bool :=
  (s₀.findTodoBySeriesDue series.tenantId series.id due.isoformat).isNone

/-- The ticks have dealt with the first `k` occurrences of a series after its anchor: the todos
that came in are for these, but for those days that had a todo before. -/
structure Materialised (library : RuleLibrary) (s₀ s : TodosStore) (last : Option Int)
    (series : TodoSeriesRecord) (anchor : Date) (k : Nat) : Prop where
  kept : s₀.todos.rows <+: s.todos.rows
  length : (occurrences library series k anchor).length = k
  row : ∃ t, s.series.find? series.id = some { series with lastMaterializedDue := t } ∧
    seriesAnchorDate { series with lastMaterializedDue := t } =
      .ok (reachedDay library series k anchor)
  created : createdDues s₀ s series.id =
    ((occurrences library series k anchor).filter (Open s₀ series)).map fun due =>
      some due.isoformat
  begun : ∀ due ∈ occurrences library series k anchor, ∃ t, last = some t ∧ anchorDatetime due ≤ t

theorem materialised_zero (hseries : series ∈ s₀.series.rows)
    (hanchor : seriesAnchorDate series = .ok anchor) :
    Materialised library s₀ s₀ none series anchor 0 where
  kept := List.prefix_rfl
  length := rfl
  row := ⟨series.lastMaterializedDue, Table.mem_rows_iff.mp hseries, hanchor⟩
  created := by
    rw [createdDues, cameIn, List.drop_length]
    rfl
  begun := nofun

theorem Materialised.later (h : Materialised library s₀ s last series anchor k)
    (hlast : ∀ t, last = some t → t ≤ now) :
    Materialised library s₀ s (some now) series anchor k where
  kept := h.kept
  length := h.length
  row := h.row
  created := h.created
  begun due hdue := by
    obtain ⟨t, ht, hle⟩ := h.begun due hdue
    exact ⟨now, rfl, hle.trans (hlast t ht)⟩

theorem dueDay_eq_some_iff (hanchor : seriesAnchorDate series = .ok anchor) :
    dueDay library now series = .ok (some due) ↔
      nextDue library series.rule series.spec anchor = .ok due ∧ ∃ today,
        utcDate now = .ok today ∧ due.ordinal ≤ today.ordinal := by
  rw [dueDay, hanchor, ok_bind]
  cases hnext : nextDue library series.rule series.spec anchor with
  | error e =>
      cases e with
      | recurrenceRuleError message => exact ⟨nofun, fun h => by cases h.1⟩
      | overflowError => exact ⟨nofun, fun h => by cases h.1⟩
  | ok next =>
      dsimp only
      constructor
      · intro h
        obtain ⟨today, htoday, hdue⟩ := bind_eq_ok_iff.mp h
        have hdue := Except.ok.inj hdue
        split at hdue
        · cases hdue
        · next hlt =>
            obtain rfl := Option.some.inj hdue
            exact ⟨rfl, today, htoday, Nat.not_lt.mp hlt⟩
      · rintro ⟨heq, today, htoday, hle⟩
        obtain rfl := Except.ok.inj heq
        rw [htoday]
        exact congrArg Except.ok (if_neg (Nat.not_lt.mpr hle))

/-- What a tick does for a series that is due: it goes on from the day that is due, and makes a
todo for it unless there is one. -/
theorem processed_of_due (hrow : s.series.find? row.id = some row)
    (hdue : dueDay library now row = .ok (some due)) (h : Processed library now row s s') :
    s'.series = s.series.put { row with lastMaterializedDue := some (anchorDatetime due) } ∧
      ((¬ Open s row due ∧ s'.todos.rows = s.todos.rows) ∨
        Open s row due ∧ ∃ id,
          s'.todos.rows = s.todos.rows ++ [materializedTodo row due.isoformat id]) := by
  have hupdate {t : TodosStore} (ht : t.series = s.series) :
      (t.updateSeriesLastMaterialized row.id (anchorDatetime due)).2 = { t with
        series := s.series.put { row with lastMaterializedDue := some (anchorDatetime due) } } := by
    rw [TodosStore.updateSeriesLastMaterialized]
    simp only [ht, hrow]
  simp only [Processed, hdue] at h
  cases hfound : s.findTodoBySeriesDue row.tenantId row.id due.isoformat with
  | some existing =>
      simp only [hfound] at h
      rw [hupdate rfl] at h
      rw [h]
      refine ⟨rfl, .inl ⟨?_, rfl⟩⟩
      rw [Open, hfound]
      exact Bool.false_ne_true
  | none =>
      simp only [hfound] at h
      obtain ⟨id, hfresh, hstate⟩ := h
      have hstate : s' = _ := hstate
      simp only [TodosStore.answer] at hstate
      rw [hupdate (t := s.insertTodo _) rfl] at hstate
      rw [hstate]
      refine ⟨rfl, .inr ⟨?_, id, ?_⟩⟩
      · rw [Open, hfound]
        rfl
      · exact Dict.values_set_of_get?_none _ hfresh

end CopilotRuntime.Todos
