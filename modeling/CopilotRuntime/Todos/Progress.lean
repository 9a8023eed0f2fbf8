import CopilotRuntime.Todos.Occurrences

/-!
# Progress of series

What a tick does for a series takes that series to its next occurrence if this is due, and leaves
every other series where it was.
-/

namespace CopilotRuntime.Todos

open Foundation Program

variable {library : RuleLibrary} {now : Int} {s₀ s s' : TodosStore} {last : Option Int}
  {series row : TodoSeriesRecord} {anchor : Date} {k : Nat}

theorem anchorDatetime_le {t : Int} {due day : Date} (hday : utcDate t = .ok day)
    (hle : due.ordinal ≤ day.ordinal) : anchorDatetime due ≤ t := by
  unfold utcDate at hday
  split at hday
  · obtain rfl := Except.ok.inj hday
    have hordinal : (due.ordinal : Int) - 1 ≤ t / microsecondsPerDay := by
      dsimp only at hle
      omega
    calc anchorDatetime due
        ≤ t / microsecondsPerDay * microsecondsPerDay :=
          Int.mul_le_mul_of_nonneg_right hordinal (by decide)
      _ ≤ t := Int.ediv_mul_le t (by decide)
  · cases hday

/-- The todos that came in, after one more did. -/
theorem cameIn_append {t : TodoRecord} (hkept : s₀.todos.rows <+: s.todos.rows)
    (hrows : s'.todos.rows = s.todos.rows ++ [t]) : cameIn s₀ s' = cameIn s₀ s ++ [t] := by
  rw [cameIn, hrows, List.drop_append_of_le_length hkept.length_le, cameIn]

theorem createdDues_append {t : TodoRecord} {id : String}
    (hkept : s₀.todos.rows <+: s.todos.rows) (hrows : s'.todos.rows = s.todos.rows ++ [t]) :
    createdDues s₀ s' id =
      createdDues s₀ s id ++ if t.seriesId = some id then [t.due] else [] := by
  rw [createdDues, cameIn_append hkept hrows, List.filter_append, List.map_append, createdDues]
  apply congrArg
  by_cases hseries : t.seriesId = some id
  · rw [if_pos hseries, List.filter_cons_of_pos (by simpa using hseries)]
    rfl
  · rw [if_neg hseries, List.filter_cons_of_neg (by simpa using hseries)]
    rfl

theorem createdDues_of_same (id : String) (hrows : s'.todos.rows = s.todos.rows) :
    createdDues s₀ s' id = createdDues s₀ s id := by
  rw [createdDues, cameIn, hrows, createdDues, cameIn]

/-- A day for which no todo came in is open if it was at first. -/
theorem open_iff {due : Date} (hkept : s₀.todos.rows <+: s.todos.rows)
    (hnew : some due.isoformat ∉ createdDues s₀ s series.id) :
    Open s series due = Open s₀ series due := by
  have hrows : s.todos.rows = s₀.todos.rows ++ cameIn s₀ s :=
    (List.prefix_iff_eq_append.mp hkept).symm
  have hnone : (cameIn s₀ s).find? (fun t => t.tenantId = series.tenantId && t.deletedAt.isNone &&
      t.seriesId = some series.id && t.due = some due.isoformat) = none := by
    rw [List.find?_eq_none]
    intro t ht hmatches
    simp only [Bool.and_eq_true, decide_eq_true_eq] at hmatches
    obtain ⟨⟨-, hseries⟩, hdue⟩ := hmatches
    apply hnew
    rw [← hdue]
    exact List.mem_map_of_mem (List.mem_filter.mpr ⟨ht, decide_eq_true hseries⟩)
  rw [Open, TodosStore.findTodoBySeriesDue, hrows, List.find?_append, hnone, Option.or_none, Open,
    TodosStore.findTodoBySeriesDue]

/-- No todo came in for a day after the last occurrence that was dealt with. -/
theorem Materialised.not_mem_createdDues {due : Date}
    (h : Materialised library s₀ s last series anchor k)
    (hafter : (reachedDay library series k anchor).ordinal < due.ordinal) :
    some due.isoformat ∉ createdDues s₀ s series.id := by
  rw [h.created]
  intro hmem
  obtain ⟨earlier, hearlier, heq⟩ := List.mem_map.mp hmem
  have hle := le_reachedDay_of_mem (List.mem_filter.mp hearlier).1
  obtain rfl := Date.isoformat_injective (Option.some.inj heq)
  omega

theorem Processed.evaluated (hp : Processed library now row s s') :
    ∃ day, dueDay library now row = .ok day := by
  cases hdue : dueDay library now row with
  | error e => simp only [Processed, hdue] at hp
  | ok day => exact ⟨day, rfl⟩

section Step
variable (h : Materialised library s₀ s last series anchor k)
  (hp : Processed library now row s s') (hlast : ∀ t, last = some t → t ≤ now)
include h hp hlast

/-- What is done for a series that is due takes it to its next occurrence. -/
theorem Materialised.next {due : Date} (hrow : s.series.find? series.id = some row)
    (hdue : dueDay library now row = .ok (some due)) :
    Materialised library s₀ s' (some now) series anchor (k + 1) := by
  obtain ⟨t, hfound, hanchor⟩ := h.row
  obtain rfl := Option.some.inj (hrow.symm.trans hfound)
  obtain ⟨hnext, today, htoday, hle⟩ := (dueDay_eq_some_iff hanchor).mp hdue
  have hnext : nextDue library series.rule series.spec (reachedDay library series k anchor) =
      .ok due := hnext
  have hmore := occurrences_succ h.length hnext
  have hreached : reachedDay library series (k + 1) anchor = due := by
    rw [reachedDay, hmore, List.getLastD_concat]
  have hopen : Open s series due = Open s₀ series due :=
    open_iff h.kept (h.not_mem_createdDues (lt_nextDue hnext))
  obtain ⟨hseries, hrows⟩ := processed_of_due hrow hdue hp
  have hcreated : createdDues s₀ s' series.id = createdDues s₀ s series.id ++
      if Open s₀ series due then [some due.isoformat] else [] := by
    obtain ⟨htaken, hsame⟩ | ⟨hfree, id, hadded⟩ := hrows
    · have htaken : ¬ Open s series due := htaken
      rw [hopen] at htaken
      rw [createdDues_of_same _ hsame, if_neg htaken, List.append_nil]
    · have hfree : Open s series due := hfree
      have hown : (materializedTodo series due.isoformat id).seriesId = some series.id := rfl
      rw [createdDues_append h.kept hadded, if_pos (hopen.symm.trans hfree)]
      exact congrArg _ (if_pos hown)
  constructor
  · obtain ⟨-, hsame⟩ | ⟨-, id, hadded⟩ := hrows
    · rw [hsame]
      exact h.kept
    · rw [hadded]
      exact h.kept.trans (List.prefix_append _ _)
  · rw [hmore, List.length_append, h.length, List.length_singleton]
  · refine ⟨some (anchorDatetime due), ?_, ?_⟩
    · rw [hseries]
      exact Table.find?_put_self _ _
    · rw [hreached]
      exact utcDate_anchorDatetime due
  · rw [hcreated, h.created, hmore, List.filter_append, List.map_append]
    apply congrArg
    by_cases hfree : Open s₀ series due = true
    · rw [if_pos hfree, List.filter_cons_of_pos hfree]
      rfl
    · rw [if_neg hfree, List.filter_cons_of_neg hfree]
      rfl
  · intro d hd
    rw [hmore] at hd
    obtain hearlier | hlatest := List.mem_append.mp hd
    · exact (h.later hlast).begun d hearlier
    · obtain rfl := List.mem_singleton.mp hlatest
      exact ⟨now, rfl, anchorDatetime_le htoday hle⟩

/-- What is done for a series that is not due leaves it where it was. -/
theorem Materialised.stay (hdue : dueDay library now row = .ok none) :
    Materialised library s₀ s' (some now) series anchor k := by
  simp only [Processed, hdue] at hp
  rw [hp]
  exact h.later hlast

omit h hlast in
/-- What is done for a series leaves the rows of the others. -/
theorem Processed.find?_of_ne {other : TodoSeriesRecord} (hrow : s.series.find? row.id = some row)
    (hne : row.id ≠ other.id) : s'.series.find? other.id = s.series.find? other.id := by
  obtain ⟨day, hdue⟩ := hp.evaluated
  cases day with
  | none =>
      simp only [Processed, hdue] at hp
      rw [hp]
  | some due =>
      obtain ⟨hseries, -⟩ := processed_of_due hrow hdue hp
      rw [hseries]
      exact Table.find?_put_of_ne _ hne

/-- What is done for a series leaves every other series where it was. -/
theorem Materialised.other (hne : row.id ≠ series.id) (hrow : s.series.find? row.id = some row) :
    Materialised library s₀ s' (some now) series anchor k := by
  obtain ⟨day, hdue⟩ := hp.evaluated
  cases day with
  | none => exact h.stay hp hlast hdue
  | some due =>
      obtain ⟨-, hrows⟩ := processed_of_due hrow hdue hp
      have hlater := h.later hlast
      have hcreated : s₀.todos.rows <+: s'.todos.rows ∧
          createdDues s₀ s' series.id = createdDues s₀ s series.id := by
        obtain ⟨-, hsame⟩ | ⟨-, id, hadded⟩ := hrows
        · exact ⟨hsame ▸ h.kept, createdDues_of_same _ hsame⟩
        · refine ⟨hadded ▸ h.kept.trans (List.prefix_append _ _), ?_⟩
          have hforeign : (materializedTodo row due.isoformat id).seriesId ≠ some series.id :=
            fun heq => hne (Option.some.inj heq)
          rw [createdDues_append h.kept hadded, if_neg hforeign, List.append_nil]
      obtain ⟨hkept, hsame⟩ := hcreated
      obtain ⟨t, hfound, hanchor⟩ := hlater.row
      exact ⟨hkept, hlater.length, ⟨t, (hp.find?_of_ne hrow hne).trans hfound, hanchor⟩,
        hsame.trans hlater.created, hlater.begun⟩

end Step

/-! ### Several series -/

variable {rows : List TodoSeriesRecord}

/-- The rows are those of the store, each of its own series. -/
structure Current (s : TodosStore) (rows : List TodoSeriesRecord) : Prop where
  found : ∀ row ∈ rows, s.series.find? row.id = some row
  distinct : (rows.map TodoSeriesRecord.id).Nodup

theorem Current.tail (h : Current s (row :: rows)) (hp : Processed library now row s s') :
    Current s' rows := by
  obtain ⟨hrow, hfound⟩ := List.forall_mem_cons.mp h.found
  obtain ⟨hnot, hdistinct⟩ := List.nodup_cons.mp h.distinct
  refine ⟨fun other hother => ?_, hdistinct⟩
  have hne : row.id ≠ other.id := by
    intro heq
    apply hnot
    rw [heq]
    exact List.mem_map_of_mem hother
  rw [hp.find?_of_ne hrow hne]
  exact hfound other hother

/-- Series that are not among those that are processed stay where they were. -/
theorem ProcessedAll.elsewhere (hall : ProcessedAll library now rows s s')
    (hcurrent : Current s rows) (hlast : ∀ t, last = some t → t ≤ now)
    (hnot : series.id ∉ rows.map TodoSeriesRecord.id)
    (h : Materialised library s₀ s last series anchor k) :
    Materialised library s₀ s' (some now) series anchor k := by
  induction hall generalizing last with
  | nil s => exact h.later hlast
  | cons first rest ih =>
      rw [List.map_cons, List.mem_cons, not_or] at hnot
      obtain ⟨hne, hmore⟩ := hnot
      have hnext := h.other first hlast (Ne.symm hne) (hcurrent.found _ List.mem_cons_self)
      refine ih (hcurrent.tail first) (fun t ht => ?_) hmore hnext
      obtain rfl := Option.some.inj ht
      exact Int.le_refl _

/-- A series among those that are processed goes on to its next occurrence if this is due. -/
theorem ProcessedAll.among (hall : ProcessedAll library now rows s s')
    (hcurrent : Current s rows) (hlast : ∀ t, last = some t → t ≤ now)
    (hrow : row ∈ rows) (hid : row.id = series.id)
    (h : Materialised library s₀ s last series anchor k) :
    (∀ due, dueDay library now row = .ok (some due) →
      Materialised library s₀ s' (some now) series anchor (k + 1)) ∧
    (dueDay library now row = .ok none →
      Materialised library s₀ s' (some now) series anchor k) := by
  induction hall generalizing last with
  | nil s => cases hrow
  | cons first rest ih =>
      have hnow : ∀ t, some now = some t → t ≤ now := by
        intro t ht
        obtain rfl := Option.some.inj ht
        exact Int.le_refl _
      obtain ⟨hfound, hnot⟩ := And.intro (hcurrent.found _ List.mem_cons_self)
        (List.nodup_cons.mp hcurrent.distinct).1
      obtain rfl | hmore := List.mem_cons.mp hrow
      · rw [hid] at hnot hfound
        constructor
        · intro due hdue
          exact rest.elsewhere (hcurrent.tail first) hnow hnot (h.next first hlast hfound hdue)
        · intro hdue
          exact rest.elsewhere (hcurrent.tail first) hnow hnot (h.stay first hlast hdue)
      · refine ih (hcurrent.tail first) hnow hmore (h.other first hlast ?_ hfound)
        intro heq
        apply hnot
        rw [heq, ← hid]
        exact List.mem_map_of_mem hmore

end CopilotRuntime.Todos
