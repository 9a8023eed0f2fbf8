import CopilotRuntime.AccountMerge.Checkpoints

/-!
# A resumed merge is an uninterrupted one

A merge that is interrupted, however often, and resumed until it is completed
leaves the stores as a merge that nothing interrupts, provided no interruption
falls where a step has begun to move rows, to revoke sessions or to write its
audit rows.
-/

namespace CopilotRuntime.AccountMerge

open Foundation

variable {ρ : Type}

/-! ### What each state of the record stands for -/

section States
variable (service : MergeService ρ) (w₀ : MergeWorld ρ)

def AccountMergeRecord.runtimeRequest (r : AccountMergeRecord) : RuntimeMergeRequest :=
  ⟨r.mergeId, r.accounts⟩

/-- The counts a merge that nothing interrupts records after each step. -/
def backendCounts (r : AccountMergeRecord) : List (String × Json) :=
  [("backend", .obj (countsOf service r.accounts w₀ MergeTable.all))]

def runtimeCounts (r : AccountMergeRecord) : List (String × Json) :=
  backendCounts service w₀ r ++
    [("runtime", (service.runtime.merge r.runtimeRequest w₀.runtime).2)]

def sessionCounts (r : AccountMergeRecord) (now : Int) : List (String × Json) :=
  runtimeCounts service w₀ r ++ [("sessions_revoked",
    .int (w₀.listActiveSessions r.accounts.absorbed now).length)]

structure AtPending (r : AccountMergeRecord) (w : MergeWorld ρ) : Prop where
  counts : r.counts = []
  moving : ∀ table key, rekeyedAt service r.accounts table (w.tables table) key =
    rekeyedAt service r.accounts table (w₀.tables table) key
  owed : countsOf service r.accounts w MergeTable.all =
    countsOf service r.accounts w₀ MergeTable.all
  runtime : w.runtime = w₀.runtime
  sessions : w.sessions = w₀.sessions
  users : w.users = w₀.users
  audits : w.audits = w₀.audits

structure AtBackendDone (r : AccountMergeRecord) (w : MergeWorld ρ) : Prop where
  counts : r.counts = backendCounts service w₀ r
  rekeyed : Rekeyed service r.accounts w₀ w
  runtime : service.runtime.merge r.runtimeRequest w.runtime =
    service.runtime.merge r.runtimeRequest w₀.runtime
  sessions : w.sessions = w₀.sessions
  users : w.users = w₀.users
  audits : w.audits = w₀.audits

structure AtRuntimeDone (r : AccountMergeRecord) (w : MergeWorld ρ) : Prop where
  counts : r.counts = runtimeCounts service w₀ r
  rekeyed : Rekeyed service r.accounts w₀ w
  runtime : w.runtime = (service.runtime.merge r.runtimeRequest w₀.runtime).1
  sessions : w.sessions = w₀.sessions
  users : w.users = w₀.users
  audits : w.audits = w₀.audits

structure AtSessionsRevoked (now : Int) (r : AccountMergeRecord) (w : MergeWorld ρ) : Prop where
  counts : r.counts = sessionCounts service w₀ r now
  rekeyed : Rekeyed service r.accounts w₀ w
  runtime : w.runtime = (service.runtime.merge r.runtimeRequest w₀.runtime).1
  sessions : SessionsRevoked r.accounts.absorbed now w₀ w
  users : w.users = w₀.users ∨ UserDisabled r.accounts w₀ w
  audits : w.audits = w₀.audits

structure AtCompleted (now : Int) (origin : RequestOrigin) (r : AccountMergeRecord)
    (w : MergeWorld ρ) : Prop where
  counts : r.counts = sessionCounts service w₀ r now
  rekeyed : Rekeyed service r.accounts w₀ w
  runtime : w.runtime = (service.runtime.merge r.runtimeRequest w₀.runtime).1
  sessions : SessionsRevoked r.accounts.absorbed now w₀ w
  users : UserDisabled r.accounts w₀ w
  audits : ∃ rows, w.audits = w₀.audits ++ rows ∧ rows.map (·.timeless) = mergeAudits r origin
  error : r.error = none
  completedAt : r.completedAt.isSome = true

/-- The stores are as the state of the record says, for some time and origin of those allowed. -/
def AtCheckpoint (clock : Int → Prop) (origins : RequestOrigin → Prop) (r : AccountMergeRecord)
    (w : MergeWorld ρ) : Prop :=
  match r.state with
  | .pending => AtPending service w₀ r w
  | .backendDone => AtBackendDone service w₀ r w
  | .runtimeDone => AtRuntimeDone service w₀ r w
  | .sessionsRevoked => ∃ now, clock now ∧ AtSessionsRevoked service w₀ now r w
  | .completed => ∃ now origin, clock now ∧ origins origin ∧
      AtCompleted service w₀ now origin r w

/-- The step after the record's state has not done anything that is counted or audited. -/
def Unstarted (r : AccountMergeRecord) (w : MergeWorld ρ) : Prop :=
  match r.state with
  | .pending => countsOf service r.accounts w MergeTable.all =
      countsOf service r.accounts w₀ MergeTable.all
  | .backendDone => (service.runtime.merge r.runtimeRequest w.runtime).2 =
      (service.runtime.merge r.runtimeRequest w₀.runtime).2
  | .runtimeDone => w.sessions = w₀.sessions
  | .sessionsRevoked => w.audits = w₀.audits
  | .completed => True

/-- The account has a user, who is the only member of its organisation. -/
def MergeWorld.IsPersonalOrg (w : MergeWorld ρ) (account : Account) : Prop :=
  (w.getUser account).isSome = true ∧
    ((w.listMembers account.orgId).filter fun m => m.removedAt.isNone).map (·.userId) =
      [account.userId]

/-- The two accounts may be merged. -/
structure Admissible (accounts : AccountPair) : Prop where
  apart : accounts.absorbed ≠ accounts.survivor
  absorbed : w₀.IsPersonalOrg accounts.absorbed
  survivor : w₀.IsPersonalOrg accounts.survivor

/-- The record of a merge that began in a state of the stores. -/
structure Underway (r : AccountMergeRecord) (w : MergeWorld ρ) : Prop where
  stored : w.merges.find? r.mergeId = some r
  fresh : w₀.merges.find? r.mergeId = none
  others : ∀ id, id ≠ r.mergeId → w.merges.find? id = w₀.merges.find? id
  admissible : Admissible w₀ r.accounts
  members : w.members = w₀.members

variable (clock : Int → Prop) (origins : RequestOrigin → Prop)

/-- A merge is under way, and at its checkpoint unless its next step has begun. -/
def Midway (r : AccountMergeRecord) (w : MergeWorld ρ) : Prop :=
  Underway w₀ r w ∧ (Unstarted service w₀ r w → AtCheckpoint service w₀ clock origins r w)

/-- The records that one merge has one after the other. -/
def Continues (r r' : AccountMergeRecord) : Prop :=
  r'.mergeId = r.mergeId ∧ r'.accounts = r.accounts ∧ r'.proofRef = r.proofRef

/-- Some record of a merge is midway. -/
def Anywhere (r : AccountMergeRecord) (w : MergeWorld ρ) : Prop :=
  ∃ r', Continues r r' ∧ Midway service w₀ clock origins r' w

end States

section Records
variable {service : MergeService ρ} {w₀ w : MergeWorld ρ} {clock : Int → Prop}
  {origins : RequestOrigin → Prop} {r r' r'' : AccountMergeRecord}

theorem Continues.refl (r : AccountMergeRecord) : Continues r r := ⟨rfl, rfl, rfl⟩

theorem Continues.trans (h : Continues r r') (h' : Continues r' r'') : Continues r r'' :=
  ⟨h'.1.trans h.1, h'.2.1.trans h.2.1, h'.2.2.trans h.2.2⟩

theorem Midway.anywhere (h : Midway service w₀ clock origins r w) :
    Anywhere service w₀ clock origins r w := ⟨r, .refl r, h⟩

theorem Anywhere.of_continues (hr : Continues r r')
    (h : Anywhere service w₀ clock origins r' w) : Anywhere service w₀ clock origins r w := by
  obtain ⟨r'', hr', hmidway⟩ := h
  exact ⟨r'', hr.trans hr', hmidway⟩

/-- A merge stays under way while the other stores change. -/
theorem Underway.of_same {w' : MergeWorld ρ} (h : Underway w₀ r w) (hmerges : w'.merges = w.merges)
    (hmembers : w'.members = w.members) : Underway w₀ r w' where
  stored := by
    rw [hmerges]
    exact h.stored
  fresh := h.fresh
  others := by
    rw [hmerges]
    exact h.others
  admissible := h.admissible
  members := hmembers.trans h.members

/-- Writing the next record keeps the merge under way. -/
theorem Underway.updateMerge (h : Underway w₀ r w) (r' : AccountMergeRecord)
    (hr : Continues r r') (now : Int) :
    Underway w₀ (w.updateMerge r' now).1 (w.updateMerge r' now).2 where
  stored := w.merges.find?_put_self { r' with updatedAt := now }
  fresh := by
    change w₀.merges.find? r'.mergeId = none
    rw [hr.1]
    exact h.fresh
  others id hid := by
    refine (w.merges.find?_put_of_ne (Ne.symm hid)).trans (h.others id ?_)
    rw [← hr.1]
    exact hid
  admissible := by
    change Admissible w₀ r'.accounts
    rw [hr.2.1]
    exact h.admissible
  members := h.members

/-- A record that notes a failure stands for what it stood for. -/
theorem Midway.noteError (h : Midway service w₀ clock origins r w) (hstate : r.state ≠ .completed)
    (text : String) (now : Int) :
    Anywhere service w₀ clock origins r (w.updateMerge { r with error := some text } now).2 := by
  refine ⟨(w.updateMerge { r with error := some text } now).1, ⟨rfl, rfl, rfl⟩,
    h.1.updateMerge { r with error := some text } ⟨rfl, rfl, rfl⟩ now, fun hunstarted => ?_⟩
  obtain ⟨mergeId, accounts, state, proofRef, error, counts, startedAt, updatedAt, completedAt⟩ := r
  have hat := h.2 hunstarted
  cases state with
  | pending => exact ⟨hat.1, hat.2, hat.3, hat.4, hat.5, hat.6, hat.7⟩
  | backendDone => exact ⟨hat.1, hat.2, hat.3, hat.4, hat.5, hat.6⟩
  | runtimeDone => exact ⟨hat.1, hat.2, hat.3, hat.4, hat.5, hat.6⟩
  | sessionsRevoked =>
      obtain ⟨now', hclock, hat⟩ := hat
      exact ⟨now', hclock, hat.1, hat.2, hat.3, hat.4, hat.5, hat.6⟩
  | completed => exact absurd rfl hstate

end Records

/-! ### Each step -/

section Steps
variable {service : MergeService ρ} {w₀ w : MergeWorld ρ} {around : Surroundings ρ}
  {origins : RequestOrigin → Prop} {r : AccountMergeRecord} {α β : Type}

/-- A part of a step, which raises only where the merge is midway with the step's own record. -/
abbrev Steps (service : MergeService ρ) (w₀ : MergeWorld ρ) (around : Surroundings ρ)
    (origins : RequestOrigin → Prop) (r : AccountMergeRecord) (post : α → MergeWorld ρ → Prop)
    (p : SagaProgram α) (w : MergeWorld ρ) : Prop :=
  Program.Withstands around.effect (Anywhere service w₀ around.clock origins r)
    (fun w' => around.fails ∧ Midway service w₀ around.clock origins r w') post p w

theorem steps_bind {mid : α → MergeWorld ρ → Prop} {post : β → MergeWorld ρ → Prop}
    {p : SagaProgram α} {f : α → SagaProgram β}
    (h : Endures around (Midway service w₀ around.clock origins r) mid p w)
    (hf : ∀ a w', mid a w' → Steps service w₀ around origins r post (f a) w') :
    Steps service w₀ around origins r post (p >>= f) w :=
  Program.Withstands.bind (Program.Withstands.mono h (fun _ hmidway => hmidway.anywhere)
    (fun _ h => h) fun _ _ h => h) hf

/-- An operation of a step is followed by the rest of the step. -/
theorem steps_perform {op : MergeOp} {post : α → MergeWorld ρ → Prop}
    {f : op.Value → SagaProgram α} (hkept : Midway service w₀ around.clock origins r w)
    (hnext : ∀ now, around.clock now →
      Midway service w₀ around.clock origins r (MergeWorld.answer around.runtime now op w).2 ∧
      Steps service w₀ around origins r post (f (MergeWorld.answer around.runtime now op w).1)
        (MergeWorld.answer around.runtime now op w).2) :
    Steps service w₀ around origins r post (perform op >>= f) w := by
  have hfirst : Endures around (Midway service w₀ around.clock origins r)
      (fun value w' => Steps service w₀ around origins r post (f value) w') (perform op) w :=
    endures_perform_last hkept hnext
  exact steps_bind hfirst fun _ _ h => h

/-- The end of a step: the next record is written, and stands for the state it names. -/
theorem steps_updateMerge {next : AccountMergeRecord} {state : AccountMergeState}
    (hmidway : Midway service w₀ around.clock origins r w) (hnext : Continues r next)
    (hstate : next.state = state)
    (hat : ∀ now, AtCheckpoint service w₀ around.clock origins (w.updateMerge next now).1
      (w.updateMerge next now).2) :
    Steps service w₀ around origins r
      (fun r' w' => Continues r r' ∧ r'.state = state ∧ Underway w₀ r' w' ∧
        AtCheckpoint service w₀ around.clock origins r' w')
      (perform (.updateMerge next)) w := by
  refine .await hmidway.anywhere fun reply w' heffect => ?_
  obtain ⟨now, -, ⟨rfl, rfl⟩ | ⟨hfails, ⟨e, rfl⟩, rfl | ⟨⟨request, hop⟩, -⟩⟩⟩ := heffect
  · have hunderway := hmidway.1.updateMerge next hnext now
    refine .done ⟨(w.updateMerge next now).1, hnext, hunderway, fun _ => hat now⟩ ?_
    exact ⟨hnext, hstate, hunderway, hat now⟩
  · exact .raised hmidway.anywhere ⟨hfails, hmidway⟩
  · cases hop

theorem steps_rekeyStep (hunderway : Underway w₀ r w) (hstate : r.state = .pending)
    (hat : AtPending service w₀ r w) :
    Steps service w₀ around origins r
      (fun r' w' => Continues r r' ∧ r'.state = .backendDone ∧ Underway w₀ r' w' ∧
        AtCheckpoint service w₀ around.clock origins r' w')
      (rekeyStep service r) w := by
  have hmidway : ∀ w', MovingAll service r.accounts w w' →
      Midway service w₀ around.clock origins r w' := by
    rintro w' ⟨hworld, hmoving⟩
    refine ⟨hunderway.of_same (by rw [hworld]) (by rw [hworld]), fun hunstarted => ?_⟩
    rw [AtCheckpoint, hstate]
    rw [Unstarted, hstate] at hunstarted
    refine ⟨hat.counts, fun table key => (hmoving table key).trans (hat.moving table key),
      hunstarted, ?_, ?_, ?_, ?_⟩
    · rw [hworld]
      exact hat.runtime
    · rw [hworld]
      exact hat.sessions
    · rw [hworld]
      exact hat.users
    · rw [hworld]
      exact hat.audits
  refine steps_bind
    (Endures.mono (endures_rekey hunderway.admissible.apart w) hmidway fun _ _ h => h) ?_
  rintro counts w' ⟨rfl, hall, hrekeyed⟩
  refine steps_updateMerge (hmidway w' hall) ⟨rfl, rfl, rfl⟩ rfl fun now => ?_
  refine ⟨?_, fun table key => (hrekeyed table key).trans (hat.moving table key), ?_, ?_, ?_, ?_⟩
  · change setEntries r.counts "backend" (.obj _) = _
    rw [hat.counts, hat.owed]
    rfl
  · rw [hall.1]
    exact congrArg _ hat.runtime
  · rw [hall.1]
    exact hat.sessions
  · rw [hall.1]
    exact hat.users
  · rw [hall.1]
    exact hat.audits

theorem steps_runtimeStep (hunderway : Underway w₀ r w) (hstate : r.state = .backendDone)
    (hruntime : around.runtime = service.runtime) (hat : AtBackendDone service w₀ r w) :
    Steps service w₀ around origins r
      (fun r' w' => Continues r r' ∧ r'.state = .runtimeDone ∧ Underway w₀ r' w' ∧
        AtCheckpoint service w₀ around.clock origins r' w')
      (runtimeStep r) w := by
  have hmidway : Midway service w₀ around.clock origins r w := by
    refine ⟨hunderway, fun _ => ?_⟩
    rw [AtCheckpoint, hstate]
    exact hat
  have hrepeated := service.runtime.merge_idempotent r.runtimeRequest w.runtime
  have hmerged : Midway service w₀ around.clock origins r
      { w with runtime := (service.runtime.merge r.runtimeRequest w.runtime).1 } := by
    refine ⟨hunderway.of_same rfl rfl, fun hunstarted => ?_⟩
    rw [AtCheckpoint, hstate]
    rw [Unstarted, hstate] at hunstarted
    refine ⟨hat.counts, hat.rekeyed, Prod.ext ?_ hunstarted, hat.sessions, hat.users, hat.audits⟩
    exact hrepeated.trans (congrArg Prod.fst hat.runtime)
  refine steps_perform hmidway fun now _ => ?_
  rw [hruntime]
  refine ⟨hmerged, steps_updateMerge hmerged ⟨rfl, rfl, rfl⟩ rfl fun now => ?_⟩
  refine ⟨?_, hat.rekeyed, congrArg Prod.fst hat.runtime, hat.sessions, hat.users, hat.audits⟩
  change setEntries r.counts "runtime" (service.runtime.merge r.runtimeRequest w.runtime).2 = _
  rw [hat.counts, hat.runtime]
  rfl

theorem steps_sessionsStep (hunderway : Underway w₀ r w) (hstate : r.state = .runtimeDone)
    (hat : AtRuntimeDone service w₀ r w) :
    Steps service w₀ around origins r
      (fun r' w' => Continues r r' ∧ r'.state = .sessionsRevoked ∧ Underway w₀ r' w' ∧
        AtCheckpoint service w₀ around.clock origins r' w')
      (sessionsStep r) w := by
  have hmidway : ∀ w', OnlySessions w w' → Midway service w₀ around.clock origins r w' := by
    intro w' honly
    refine ⟨hunderway.of_same (by rw [honly]) (by rw [honly]), fun hunstarted => ?_⟩
    rw [AtCheckpoint, hstate]
    rw [Unstarted, hstate] at hunstarted
    rw [honly]
    exact ⟨hat.counts, hat.rekeyed, hat.runtime, hunstarted, hat.users, hat.audits⟩
  have hlisted : ∀ now, w.listActiveSessions r.accounts.absorbed now =
      w₀.listActiveSessions r.accounts.absorbed now := by
    intro now
    rw [MergeWorld.listActiveSessions, hat.sessions, MergeWorld.listActiveSessions]
  refine steps_perform (hmidway w (.refl w)) fun now hnow => ⟨hmidway w (.refl w), ?_⟩
  refine steps_bind (Endures.mono (endures_revokeSessions (w.listActiveSessions _ now) w
    (nodup_listActiveSessions w _ now) fun s hmem => ?_) hmidway fun _ _ h => h) ?_
  · obtain ⟨hfind, hactive⟩ := mem_listActiveSessions.mp hmem
    simp only [SessionRecord.activeAt, Bool.and_eq_true, decide_eq_true_eq,
      Option.isNone_iff_eq_none] at hactive
    exact ⟨hfind, hactive.1⟩
  · rintro revoked w' ⟨rfl, honly, hdone⟩
    refine steps_updateMerge (hmidway w' honly) ⟨rfl, rfl, rfl⟩ rfl fun later => ?_
    refine ⟨now, hnow, ?_, ?_, ?_, ?_, ?_, ?_⟩
    · change setEntries r.counts "sessions_revoked" _ = _
      rw [hat.counts, hlisted]
      rfl
    · rw [honly]
      exact hat.rekeyed
    · rw [honly]
      exact hat.runtime
    · refine sessionsRevoked_of_listed fun id => ?_
      rw [hlisted, hat.sessions] at hdone
      exact hdone id
    · rw [honly]
      exact .inl hat.users
    · rw [honly]
      exact hat.audits

theorem steps_completeStep {now : Int} {origin : RequestOrigin} (hunderway : Underway w₀ r w)
    (hstate : r.state = .sessionsRevoked) (hnow : around.clock now) (horigin : origins origin)
    (hat : AtSessionsRevoked service w₀ now r w) :
    Steps service w₀ around origins r
      (fun r' w' => Continues r r' ∧ r'.state = .completed ∧ Underway w₀ r' w' ∧
        AtCheckpoint service w₀ around.clock origins r' w')
      (completeStep origin r) w := by
  have hmidway : ∀ w', Disabling r.accounts w₀ w w' → ∀ w'', Auditing w' w'' →
      Midway service w₀ around.clock origins r w'' := by
    rintro w' ⟨hworld, husers⟩ w'' hworld'
    rw [Auditing, hworld] at hworld'
    refine ⟨hunderway.of_same (by rw [hworld']) (by rw [hworld']), fun hunstarted => ?_⟩
    rw [AtCheckpoint, hstate]
    rw [Unstarted, hstate] at hunstarted
    rw [hworld']
    exact ⟨now, hnow, hat.counts, hat.rekeyed, hat.runtime, hat.sessions, husers, hunstarted⟩
  obtain ⟨user, huser⟩ := Option.isSome_iff_exists.mp hunderway.admissible.absorbed.1
  refine steps_bind (Endures.mono (endures_disableAbsorbedUser huser hat.users)
    (fun w' h => hmidway w' h w' rfl) fun _ _ h => h) ?_
  rintro - w' ⟨hdisabling, hdisabled⟩
  refine steps_bind (Endures.mono (endures_appendMergeAudit r origin)
    (hmidway w' hdisabling) fun _ _ h => h) ?_
  rintro - w'' ⟨hauditing, rows, haudits, hrows⟩
  have hlast := hmidway w' hdisabling w'' hauditing
  have hworld : w'' = { w with users := w'.users, audits := w''.audits } := by
    rw [Auditing, hdisabling.1] at hauditing
    exact hauditing
  refine steps_perform hlast fun completedAt _ => ⟨hlast, ?_⟩
  refine steps_updateMerge hlast ⟨rfl, rfl, rfl⟩ rfl fun later => ?_
  refine ⟨now, origin, hnow, horigin, hat.counts, ?_, ?_, ?_, ?_, ⟨rows, ?_, hrows⟩, rfl, rfl⟩
  · rw [hworld]
    exact hat.rekeyed
  · rw [hworld]
    exact hat.runtime
  · rw [hworld]
    exact hat.sessions
  · rw [hworld]
    exact hdisabled
  · refine haudits.trans ?_
    rw [hdisabling.1]
    exact congrArg (· ++ rows) hat.audits

end Steps

/-! ### The whole run -/

section Running
variable {service : MergeService ρ} {w₀ w : MergeWorld ρ} {around : Surroundings ρ}
  {origins : RequestOrigin → Prop} {origin : RequestOrigin} {r : AccountMergeRecord}

def AccountMergeState.rank : AccountMergeState → Nat
  | .pending => 0
  | .backendDone => 1
  | .runtimeDone => 2
  | .sessionsRevoked => 3
  | .completed => 4

theorem AccountMergeState.rank_injective : Function.Injective AccountMergeState.rank := by
  intro a b h
  cases a <;> cases b <;> first | rfl | cases h

/-- The record is at the checkpoint of a state that is not before a given one. -/
structure Settled (service : MergeService ρ) (w₀ : MergeWorld ρ) (clock : Int → Prop)
    (origins : RequestOrigin → Prop) (n : Nat) (r : AccountMergeRecord) (w : MergeWorld ρ) :
    Prop where
  reached : n ≤ r.state.rank
  underway : Underway w₀ r w
  checkpoint : AtCheckpoint service w₀ clock origins r w

theorem Settled.anywhere {clock : Int → Prop} {n : Nat}
    (h : Settled service w₀ clock origins n r w) : Anywhere service w₀ clock origins r w :=
  ⟨r, .refl r, h.underway, fun _ => h.checkpoint⟩

theorem endures_recordFailure (hfails : around.fails) (hstate : r.state ≠ .completed)
    (hmidway : Midway service w₀ around.clock origins r w) (e : MergeException)
    (post : AccountMergeRecord → MergeWorld ρ → Prop) :
    Endures around (Anywhere service w₀ around.clock origins r) post (recordFailure r e) w := by
  cases e with
  | other text =>
      refine endures_perform hmidway.anywhere fun now _ => ?_
      have hnoted := hmidway.noteError hstate text now
      exact .raised hnoted ⟨hfails, hnoted⟩
  | mergeNotAllowed reason => exact .raised hmidway.anywhere ⟨hfails, hmidway.anywhere⟩
  | mergeRuntimeFailed message => exact .raised hmidway.anywhere ⟨hfails, hmidway.anywhere⟩

/-- Part of a run: it leads from a record to one that is settled at a later state. -/
abbrev Runs (service : MergeService ρ) (w₀ : MergeWorld ρ) (around : Surroundings ρ)
    (origins : RequestOrigin → Prop) (n : Nat) (r : AccountMergeRecord)
    (p : SagaProgram AccountMergeRecord) (w : MergeWorld ρ) : Prop :=
  Endures around (Anywhere service w₀ around.clock origins r)
    (fun r' w' => Continues r r' ∧ Settled service w₀ around.clock origins n r' w') p w

theorem runs_bind {n m : Nat} {p : SagaProgram AccountMergeRecord}
    {f : AccountMergeRecord → SagaProgram AccountMergeRecord}
    (h : Runs service w₀ around origins n r p w)
    (hf : ∀ r' w', Settled service w₀ around.clock origins n r' w' →
      Runs service w₀ around origins m r' (f r') w') :
    Runs service w₀ around origins m r (p >>= f) w := by
  refine Program.Withstands.bind h fun r' w' hmid => ?_
  refine Endures.mono (hf r' w' hmid.2) (fun _ h => h.of_continues hmid.1) ?_
  exact fun r'' w'' hlast => ⟨hmid.1.trans hlast.1, hlast.2⟩

/-- A step leads to the checkpoint after it, or was behind the record already. -/
theorem runs_stepFrom {state : AccountMergeState} (next : AccountMergeState)
    {step : AccountMergeRecord → SagaProgram AccountMergeRecord}
    (hnext : next.rank = state.rank + 1)
    (hsettled : Settled service w₀ around.clock origins state.rank r w)
    (hstep : r.state = state → Steps service w₀ around origins r
      (fun r' w' => Continues r r' ∧ r'.state = next ∧ Underway w₀ r' w' ∧
        AtCheckpoint service w₀ around.clock origins r' w') (step r) w) :
    Runs service w₀ around origins next.rank r (stepFrom state step r) w := by
  rw [stepFrom]
  by_cases hthis : r.state = state
  · have hunfinished : r.state ≠ .completed := by
      rintro heq
      rw [← hthis, heq] at hnext
      cases next <;> cases hnext
    rw [if_pos hthis]
    refine Program.Withstands.tryCatch (Program.Withstands.mono (hstep hthis) (fun _ h => h)
      (fun _ h => h) ?_) ?_
    · rintro r' w' ⟨hcontinues, hafter, hunderway, hcheckpoint⟩
      exact ⟨hcontinues, (congrArg _ hafter).ge, hunderway, hcheckpoint⟩
    · intro e w' _ hfailed
      exact endures_recordFailure hfailed.1 hunfinished hfailed.2 e _
  · rw [if_neg hthis]
    have hbehind : state.rank ≠ r.state.rank := fun heq =>
      hthis (AccountMergeState.rank_injective heq).symm
    have hreached : next.rank ≤ r.state.rank := by
      have := hsettled.reached
      omega
    exact endures_pure hsettled.anywhere
      ⟨.refl r, hreached, hsettled.underway, hsettled.checkpoint⟩

/-- A run from any checkpoint leads to the last one. -/
theorem runs_run (hruntime : around.runtime = service.runtime) (horigin : origins origin)
    (hsettled : Settled service w₀ around.clock origins 0 r w) :
    Runs service w₀ around origins 4 r (run service origin r) w := by
  refine runs_bind (runs_stepFrom .backendDone rfl hsettled fun hstate => ?_) ?_
  · have hat := hsettled.checkpoint
    rw [AtCheckpoint, hstate] at hat
    exact steps_rekeyStep hsettled.underway hstate hat
  intro r w hsettled
  refine runs_bind (runs_stepFrom .runtimeDone rfl hsettled fun hstate => ?_) ?_
  · have hat := hsettled.checkpoint
    rw [AtCheckpoint, hstate] at hat
    exact steps_runtimeStep hsettled.underway hstate hruntime hat
  intro r w hsettled
  refine runs_bind (runs_stepFrom .sessionsRevoked rfl hsettled fun hstate => ?_) ?_
  · have hat := hsettled.checkpoint
    rw [AtCheckpoint, hstate] at hat
    exact steps_sessionsStep hsettled.underway hstate hat
  intro r w hsettled
  refine runs_stepFrom .completed rfl hsettled fun hstate => ?_
  have hat := hsettled.checkpoint
  rw [AtCheckpoint, hstate] at hat
  obtain ⟨now, hnow, hat⟩ := hat
  exact steps_completeStep hsettled.underway hstate hnow horigin hat

end Running

end CopilotRuntime.AccountMerge
