import CopilotRuntime.SiemExport.Pump
import CopilotRuntime.Foundation.History
import Mathlib.Data.String.Basic

/-!
# What the cursor passes over

The cursor is compared with ids, and rows are fetched in the order they were
created. The two agree as long as no row comes in below a stored cursor, and the
last row of a batch lies below every row that has still to be sent.
-/

namespace CopilotRuntime.SiemExport

open Foundation

namespace PumpState
variable {ι : Type} [LinearOrder ι]

/-- The row was exported to the destination, or parked for it. -/
def Delivered (s : PumpState ι) (destination : Destination) (id : ι) : Prop :=
  (destination, id) ∈ s.exported ∨ (destination, id) ∈ s.deadLetters

/-- Every row that a destination's fetch no longer returns was delivered to it. -/
def NothingPassedOver (s : PumpState ι) : Prop :=
  ∀ destination, ∀ row ∈ s.tables destination.source,
    isAfter (s.cursors.get? destination) row = false → s.Delivered destination row.id

/-- When a fetch of the destination finds nothing, its whole table was delivered to it. -/
def Drained (batchSize : Int) (s : PumpState ι) : Prop :=
  ∀ destination, s.fetchBatch batchSize destination = some [] →
    ∀ row ∈ s.tables destination.source, s.Delivered destination row.id

/-- The event agrees with the order of the ids: a row comes in above the stored cursors, and a
cursor is stored below the rows that have still to be sent. -/
def InIdOrder (s : PumpState ι) : PumpEvent ι → Prop
  | .insert source row => s.admitsRow source row = true → ∀ destination : Destination,
      destination.source = source → isAfter (s.cursors.get? destination) row = true
  | .writeCursor => ∀ destination rows last, s.phase = .advancing destination rows →
      rows.getLast? = some last → ∀ row ∈ s.tables destination.source, row ∉ rows →
        isAfter (s.cursors.get? destination) row = true →
          ¬ s.Delivered destination row.id → last.id < row.id
  | _ => True

/-- The batch under way. -/
def batch (s : PumpState ι) : List (Destination × List (AuditRow ι)) :=
  match s.phase with
  | .idle => []
  | .sending destination rows => [(destination, rows)]
  | .rejected destination rows => [(destination, rows)]
  | .advancing destination rows => [(destination, rows)]

/-- Batches and deliveries are of rows of the table, and a batch that is done was delivered. -/
structure Sound (s : PumpState ι) : Prop where
  known : ∀ destination id, s.Delivered destination id →
    ∃ row ∈ s.tables destination.source, row.id = id
  batched : ∀ destination rows, (destination, rows) ∈ s.batch →
    ∀ row ∈ rows, row ∈ s.tables destination.source
  advanced : ∀ destination rows, s.phase = .advancing destination rows →
    ∀ row ∈ rows, s.Delivered destination row.id

variable {batchSize : Int} {backoffCap : ℚ} {s : PumpState ι}

omit [LinearOrder ι] in
theorem sound_init : (init : PumpState ι).Sound where
  known destination id h := by simp [Delivered, init] at h
  batched destination rows h := by simp [batch, init] at h
  advanced destination rows h := by cases h

theorem mem_fetchLocal {table : List (AuditRow ι)} {cursor : Option ι} {rows : List (AuditRow ι)}
    (h : fetchLocal batchSize table cursor = some rows) {row : AuditRow ι} (hrow : row ∈ rows) :
    row ∈ table ∧ isAfter cursor row = true := by
  unfold fetchLocal at h
  split at h
  · cases h
  · cases h
    have hmem := List.mem_of_mem_take hrow
    rw [List.mem_insertionSort, List.mem_filter] at hmem
    exact hmem

/-- A fetch with room for a row finds none only if the cursor has passed all of them. -/
theorem not_isAfter_of_fetchLocal_nil {table : List (AuditRow ι)} {cursor : Option ι}
    (hbatch : 0 < batchSize) (h : fetchLocal batchSize table cursor = some [])
    {row : AuditRow ι} (hrow : row ∈ table) : isAfter cursor row = false := by
  unfold fetchLocal at h
  rw [if_neg (by omega), Option.some.injEq, List.take_eq_nil_iff] at h
  obtain hzero | hnil := h
  · omega
  · by_contra hafter
    have hmem : row ∈ (table.filter (isAfter cursor)).insertionSort fetchOrder := by
      rw [List.mem_insertionSort, List.mem_filter]
      exact ⟨hrow, by simpa using hafter⟩
    rw [hnil] at hmem
    cases hmem

theorem drained_of_nothingPassedOver (hbatch : 0 < batchSize) (h : s.NothingPassedOver) :
    s.Drained batchSize := fun destination hnil row hrow =>
  h destination row hrow (not_isAfter_of_fetchLocal_nil hbatch hnil hrow)

/-! ### What a step leaves -/

/-- The step keeps the tables and cursors, and every delivery. -/
structure Keeps (s s' : PumpState ι) : Prop where
  tables : s'.tables = s.tables
  cursors : s'.cursors = s.cursors
  delivered : ∀ destination id, s.Delivered destination id → s'.Delivered destination id

theorem NothingPassedOver.of_keeps {s' : PumpState ι} (h : s.NothingPassedOver)
    (hkeeps : Keeps s s') : s'.NothingPassedOver := by
  intro destination row hrow hpassed
  rw [hkeeps.tables] at hrow
  rw [hkeeps.cursors] at hpassed
  exact hkeeps.delivered _ _ (h destination row hrow hpassed)

omit [LinearOrder ι] in
theorem Keeps.refl (s : PumpState ι) : Keeps s s := ⟨rfl, rfl, fun _ _ h => h⟩

/-- Only an insertion and a stored cursor change the tables or the cursors. -/
theorem keeps_step (e : PumpEvent ι) (hinsert : ∀ source row, e ≠ .insert source row)
    (hcursor : e ≠ .writeCursor) : Keeps s (s.step batchSize backoffCap e) := by
  cases e with
  | insert source row => exact absurd rfl (hinsert source row)
  | visit destination =>
      unfold step
      dsimp only
      split
      · unfold visit
        dsimp only
        split
        · exact ⟨rfl, rfl, fun _ _ h => h⟩
        · split
          · exact .refl s
          · exact .refl s
          · exact ⟨rfl, rfl, fun _ _ h => h⟩
      · exact .refl s
  | reply outcome =>
      unfold step
      dsimp only
      split
      · cases outcome with
        | ok =>
            exact ⟨rfl, rfl, fun _ _ h => h.imp_left fun hmem => List.mem_append_left _ hmem⟩
        | retry => exact ⟨rfl, rfl, fun _ _ h => h⟩
        | deadLetter => exact ⟨rfl, rfl, fun _ _ h => h⟩
      · exact .refl s
  | writeDeadLetters =>
      unfold step
      dsimp only
      split
      · exact ⟨rfl, rfl, fun _ _ h => h.imp_right fun hmem => List.mem_append_left _ hmem⟩
      · exact .refl s
  | writeCursor => exact absurd rfl hcursor
  | raise => exact ⟨rfl, rfl, fun _ _ h => h⟩
  | crash => exact ⟨rfl, rfl, fun _ _ h => h⟩

omit [LinearOrder ι] in
theorem mem_named {destination other : Destination} {rows : List (AuditRow ι)} {id : ι} :
    (other, id) ∈ named destination rows ↔
      other = destination ∧ ∃ row ∈ rows, row.id = id := by
  rw [named, List.mem_map]
  constructor
  · rintro ⟨row, hrow, heq⟩
    obtain ⟨rfl, rfl⟩ := Prod.mk.inj heq
    exact ⟨rfl, row, hrow, rfl⟩
  · rintro ⟨rfl, row, hrow, rfl⟩
    exact ⟨row, hrow, rfl⟩

omit [LinearOrder ι] in
/-- A batch that ends leaves what was delivered. -/
theorem Sound.idle (h : s.Sound) (cursors : Dict Destination ι) (backoff : Dict Destination ℚ) :
    Sound { s with cursors := cursors, backoff := backoff, phase := .idle } where
  known := h.known
  batched destination rows hbatch := by simp [batch] at hbatch
  advanced destination rows hphase := by cases hphase

omit [LinearOrder ι] in
/-- A batch whose rows have been delivered may advance the cursor. -/
theorem Sound.deliver (h : s.Sound) {destination : Destination} {rows : List (AuditRow ι)}
    (hbatch : (destination, rows) ∈ s.batch) {s' : PumpState ι} (htables : s'.tables = s.tables)
    (hphase : s'.phase = .advancing destination rows)
    (hdelivered : ∀ other id, s'.Delivered other id ↔
      s.Delivered other id ∨ (other, id) ∈ named destination rows) : s'.Sound where
  known other id hid := by
    rw [htables]
    obtain hold | hnew := (hdelivered other id).mp hid
    · exact h.known other id hold
    · obtain ⟨rfl, row, hrow, rfl⟩ := mem_named.mp hnew
      exact ⟨row, h.batched _ rows hbatch row hrow, rfl⟩
  batched other rows' hbatch' := by
    rw [htables]
    simp only [batch, hphase, List.mem_singleton, Prod.mk.injEq] at hbatch'
    obtain ⟨rfl, rfl⟩ := hbatch'
    exact h.batched _ _ hbatch
  advanced other rows' hphase' := by
    rw [hphase] at hphase'
    cases hphase'
    exact fun row hrow => (hdelivered _ _).mpr (.inr (mem_named.mpr ⟨rfl, row, hrow, rfl⟩))

theorem Sound.step (h : s.Sound) (e : PumpEvent ι) :
    (s.step batchSize backoffCap e).Sound := by
  cases e with
  | insert source row =>
      unfold PumpState.step
      dsimp only
      split
      · have hsub : ∀ other, ∀ old ∈ s.tables other,
            old ∈ (s.insertRow source row).tables other := by
          intro other old hold
          unfold insertRow
          dsimp only
          split
          · next heq =>
              rw [heq] at hold
              exact List.mem_append_left _ hold
          · exact hold
        exact {
          known := fun destination id hid => by
            obtain ⟨old, hold, heq⟩ := h.known destination id hid
            exact ⟨old, hsub _ old hold, heq⟩
          batched := fun destination rows hbatch old hold =>
            hsub _ old (h.batched destination rows hbatch old hold)
          advanced := h.advanced }
      · exact h
  | visit destination =>
      unfold PumpState.step
      dsimp only
      split
      · next hidle =>
          unfold visit
          dsimp only
          split
          · exact ⟨h.known, h.batched, h.advanced⟩
          · split
            · exact h
            · exact h
            · next rows hfetch =>
                refine ⟨h.known, fun other rows' hbatch row hrow => ?_,
                  fun _ _ hphase => by cases hphase⟩
                simp only [batch, List.mem_singleton, Prod.mk.injEq] at hbatch
                obtain ⟨rfl, rfl⟩ := hbatch
                exact (mem_fetchLocal hfetch hrow).1
      · exact h
  | reply outcome =>
      unfold PumpState.step
      dsimp only
      split
      · next destination rows hphase =>
          have hbatch : (destination, rows) ∈ s.batch := by simp [batch, hphase]
          cases outcome with
          | ok =>
              refine h.deliver hbatch rfl rfl fun other id => ?_
              unfold Delivered classify
              simp only [List.mem_append]
              exact or_right_comm
          | retry => exact h.idle _ _
          | deadLetter =>
              refine ⟨h.known, fun other rows' hbatch' => ?_,
                fun _ _ hphase' => by cases hphase'⟩
              simp only [batch, classify, List.mem_singleton, Prod.mk.injEq] at hbatch'
              obtain ⟨rfl, rfl⟩ := hbatch'
              exact h.batched _ _ hbatch
      · exact h
  | writeDeadLetters =>
      unfold PumpState.step
      dsimp only
      split
      · next destination rows hphase =>
          have hbatch : (destination, rows) ∈ s.batch := by simp [batch, hphase]
          refine h.deliver hbatch rfl rfl fun other id => ?_
          unfold Delivered
          simp only [List.mem_append]
          exact or_assoc.symm
      · exact h
  | writeCursor =>
      unfold PumpState.step
      dsimp only
      split
      · unfold storeCursor
        split
        · exact h.idle _ _
        · exact h.idle _ _
      · exact h
  | raise => exact h.idle _ _
  | crash => exact h.idle _ _

/-! ### When a step passes nothing over -/

theorem nothingPassedOver_insert_iff (hsound : s.Sound) (h : s.NothingPassedOver)
    (source : SiemExportSource) (row : AuditRow ι) :
    (s.step batchSize backoffCap (.insert source row)).NothingPassedOver ↔
      s.InIdOrder (.insert source row) := by
  by_cases hadmitted : s.admitsRow source row = true
  · have hstep : s.step batchSize backoffCap (.insert source row) = s.insertRow source row := by
      simp [PumpState.step, hadmitted]
    have hnew : row ∈ (s.insertRow source row).tables source := by simp [insertRow]
    rw [hstep]
    constructor
    · rintro hpasses _ destination rfl
      by_contra hbelow
      have hpassed : isAfter (s.cursors.get? destination) row = false := by simpa using hbelow
      have hdelivered : s.Delivered destination row.id := hpasses destination row hnew hpassed
      obtain ⟨old, hold, hid⟩ := hsound.known destination row.id hdelivered
      have hfresh := List.all_eq_true.mp hadmitted old hold
      simp [hid] at hfresh
    · intro horder destination other hother hpassed
      by_cases hsource : destination.source = source
      · simp only [insertRow, hsource, if_true, List.mem_append, List.mem_singleton] at hother
        obtain hold | rfl := hother
        · exact h destination other (by rw [hsource]; exact hold) hpassed
        · have hafter := horder hadmitted destination hsource
          change isAfter (s.cursors.get? destination) other = false at hpassed
          rw [hafter] at hpassed
          cases hpassed
      · simp only [insertRow, hsource, if_false] at hother
        exact h destination other hother hpassed
  · have hstep : s.step batchSize backoffCap (.insert source row) = s := by
      simp [PumpState.step, hadmitted]
    rw [hstep]
    exact ⟨fun _ hadmits => absurd hadmits hadmitted, fun _ => h⟩

theorem isAfter_some {id : ι} {row : AuditRow ι} :
    isAfter (some id) row = false ↔ row.id ≤ id := by
  simp [isAfter]

theorem nothingPassedOver_writeCursor_iff (hsound : s.Sound) (h : s.NothingPassedOver) :
    (s.step batchSize backoffCap .writeCursor).NothingPassedOver ↔ s.InIdOrder .writeCursor := by
  cases hphase : s.phase with
  | advancing destination rows =>
      cases hlast : rows.getLast? with
      | none =>
          have hstep : s.step batchSize backoffCap .writeCursor = { s with phase := .idle } := by
            simp [PumpState.step, hphase, storeCursor, hlast]
          rw [hstep]
          refine ⟨fun _ other rows' last hphase' hlast' => ?_, fun _ => h⟩
          rw [hphase] at hphase'
          cases hphase'
          rw [hlast] at hlast'
          cases hlast'
      | some last =>
          have hstep : s.step batchSize backoffCap .writeCursor =
              { s with cursors := s.cursors.set destination last.id, phase := .idle } := by
            simp [PumpState.step, hphase, storeCursor, hlast]
          rw [hstep]
          constructor
          · intro hpasses other rows' last' hphase' hlast' row hrow hnot hafter hundelivered
            rw [hphase] at hphase'
            cases hphase'
            obtain rfl : last = last' := Option.some.inj (hlast.symm.trans hlast')
            by_contra hle
            refine hundelivered (hpasses destination row hrow ?_)
            change isAfter ((s.cursors.set destination last.id).get? destination) row = false
            rw [Dict.get?_set_self, isAfter_some]
            exact not_lt.mp hle
          · intro horder other row hrow hpassed
            change isAfter ((s.cursors.set destination last.id).get? other) row = false at hpassed
            by_cases hother : destination = other
            · subst hother
              rw [Dict.get?_set_self, isAfter_some] at hpassed
              by_cases hmem : row ∈ rows
              · exact hsound.advanced destination rows hphase row hmem
              · cases hafter : isAfter (s.cursors.get? destination) row with
                | false => exact h destination row hrow hafter
                | true =>
                    by_contra hundelivered
                    have hlt := horder destination rows last hphase hlast row hrow hmem hafter
                      hundelivered
                    exact absurd hpassed (not_le.mpr hlt)
            · rw [Dict.get?_set_of_ne s.cursors _ hother] at hpassed
              exact h other row hrow hpassed
  | idle =>
      have hstep : s.step batchSize backoffCap .writeCursor = s := by
        simp [PumpState.step, hphase]
      rw [hstep]
      refine ⟨fun _ _ _ _ hphase' => ?_, fun _ => h⟩
      rw [hphase] at hphase'
      cases hphase'
  | sending destination rows =>
      have hstep : s.step batchSize backoffCap .writeCursor = s := by
        simp [PumpState.step, hphase]
      rw [hstep]
      refine ⟨fun _ _ _ _ hphase' => ?_, fun _ => h⟩
      rw [hphase] at hphase'
      cases hphase'
  | rejected destination rows =>
      have hstep : s.step batchSize backoffCap .writeCursor = s := by
        simp [PumpState.step, hphase]
      rw [hstep]
      refine ⟨fun _ _ _ _ hphase' => ?_, fun _ => h⟩
      rw [hphase] at hphase'
      cases hphase'

/-- A step passes nothing over exactly when it agrees with the order of the ids. -/
theorem nothingPassedOver_step_iff (hsound : s.Sound) (h : s.NothingPassedOver)
    (e : PumpEvent ι) :
    (s.step batchSize backoffCap e).NothingPassedOver ↔ s.InIdOrder e := by
  cases e with
  | insert source row => exact nothingPassedOver_insert_iff hsound h source row
  | writeCursor => exact nothingPassedOver_writeCursor_iff hsound h
  | visit destination =>
      exact ⟨fun _ => trivial, fun _ => h.of_keeps (keeps_step _ (by simp) (by simp))⟩
  | reply outcome =>
      exact ⟨fun _ => trivial, fun _ => h.of_keeps (keeps_step _ (by simp) (by simp))⟩
  | writeDeadLetters =>
      exact ⟨fun _ => trivial, fun _ => h.of_keeps (keeps_step _ (by simp) (by simp))⟩
  | raise => exact ⟨fun _ => trivial, fun _ => h.of_keeps (keeps_step _ (by simp) (by simp))⟩
  | crash => exact ⟨fun _ => trivial, fun _ => h.of_keeps (keeps_step _ (by simp) (by simp))⟩

end PumpState

/-! ### Histories -/

section Histories
variable {ι : Type} [LinearOrder ι] (batchSize : Int) (backoffCap : ℚ)

/-- Every event of the history agreed with the order of the ids when it happened. -/
def EachInIdOrder (history : List (PumpEvent ι)) : Prop :=
  EachStep (fun earlier e => (PumpState.after batchSize backoffCap earlier).InIdOrder e) history

theorem after_snoc (history : List (PumpEvent ι)) (e : PumpEvent ι) :
    PumpState.after batchSize backoffCap (history ++ [e]) =
      (PumpState.after batchSize backoffCap history).step batchSize backoffCap e := by
  simp [PumpState.after]

theorem sound_after (history : List (PumpEvent ι)) :
    (PumpState.after batchSize backoffCap history).Sound := by
  induction history using List.reverseRecOn with
  | nil => exact PumpState.sound_init
  | append_singleton history e ih =>
      rw [after_snoc]
      exact ih.step e

variable {batchSize backoffCap}

theorem nothingPassedOver_after {history : List (PumpEvent ι)}
    (h : EachInIdOrder batchSize backoffCap history) :
    ∀ earlier, earlier <+: history →
      (PumpState.after batchSize backoffCap earlier).NothingPassedOver := by
  refine EachStep.throughout h ?_ fun earlier e hpasses horder => ?_
  · intro destination row hrow
    cases hrow
  · rw [after_snoc]
    exact (PumpState.nothingPassedOver_step_iff (sound_after batchSize backoffCap earlier)
      hpasses e).mpr horder

end Histories

/-- A history in which one row is exported. -/
def oneRowExported : List (PumpEvent String) :=
  [.insert .mcpAudit ⟨"b", 0⟩, .visit ⟨"splunk", .mcpAudit⟩, .reply .ok, .writeCursor]

end CopilotRuntime.SiemExport
