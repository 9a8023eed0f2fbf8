import CopilotRuntime.AccountMerge.SagaLaws
import Mathlib.Logic.Relation

/-!
# Merges that are interrupted and resumed

However often a merge is interrupted and resumed, once its record is completed
the stores are those of a merge that nothing interrupts, provided no interruption
falls where a step has begun to move rows, to revoke sessions or to write its
audit rows.
-/

namespace CopilotRuntime.AccountMerge

open Foundation

variable {ρ : Type}

/-! ### Calls for two accounts -/

section Calls
variable {service : MergeService ρ} {w₀ w : MergeWorld ρ} {around : Surroundings ρ}
  {origins : RequestOrigin → Prop} {accounts : AccountPair} {α : Type}

/-- A merge of the accounts has not begun, or is midway. -/
def Begun (service : MergeService ρ) (w₀ : MergeWorld ρ) (clock : Int → Prop)
    (origins : RequestOrigin → Prop) (accounts : AccountPair) (w : MergeWorld ρ) : Prop :=
  w = w₀ ∨ ∃ r, r.accounts = accounts ∧ Midway service w₀ clock origins r w

/-- A program that may also refuse what it is asked, and then raises. -/
abbrev Attempts (around : Surroundings ρ) (crash : MergeWorld ρ → Prop) (refuses : Prop)
    (post : α → MergeWorld ρ → Prop) (p : SagaProgram α) (w : MergeWorld ρ) : Prop :=
  Program.Withstands around.effect crash (fun _ => around.fails ∨ refuses) post p w

section Rules
variable {crash : MergeWorld ρ → Prop} {refuses : Prop} {post : α → MergeWorld ρ → Prop}

theorem Endures.attempts {p : SagaProgram α} {crash' : MergeWorld ρ → Prop}
    {post' : α → MergeWorld ρ → Prop} (h : Endures around crash' post' p w)
    (hcrash : ∀ w, crash' w → crash w) (hpost : ∀ a w, post' a w → post a w) :
    Attempts around crash refuses post p w :=
  Program.Withstands.mono h hcrash (fun _ h => .inl h.1) hpost

theorem attempts_perform {op : MergeOp} {f : op.Value → SagaProgram α} (hkept : crash w)
    (hnext : ∀ now, around.clock now →
      Attempts around crash refuses post (f (MergeWorld.answer around.runtime now op w).1)
        (MergeWorld.answer around.runtime now op w).2) :
    Attempts around crash refuses post (perform op >>= f) w := by
  have hfirst : Endures around crash
      (fun value w' => Attempts around crash refuses post (f value) w') (perform op) w :=
    endures_perform_last hkept fun now hnow => ⟨(hnext now hnow).kept, hnext now hnow⟩
  exact Program.Withstands.bind (hfirst.attempts (fun _ h => h) fun _ _ h => h) fun _ _ h => h

theorem attempts_read {op : MergeOp} {f : op.Value → SagaProgram α} (value : op.Value)
    (hreads : ∀ now, around.clock now → MergeWorld.answer around.runtime now op w = (value, w))
    (hnext : Attempts around crash refuses post (f value) w) :
    Attempts around crash refuses post (perform op >>= f) w := by
  refine attempts_perform hnext.kept fun now hnow => ?_
  rw [hreads now hnow]
  exact hnext

theorem attempts_raiseError {e : MergeException} (hkept : crash w)
    (hfails : around.fails ∨ refuses) :
    Attempts around crash refuses post (raiseError e) w := .raised hkept hfails

theorem attempts_checkPersonalOrg (account : Account) (side : String) (hkept : crash w)
    (hrefuses : ¬w.IsPersonalOrg account → refuses) :
    Attempts around crash refuses (fun _ w' => w' = w ∧ w.IsPersonalOrg account)
      (checkPersonalOrg account side) w := by
  refine attempts_perform hkept fun _ _ => ?_
  change Attempts around crash refuses _ (if (w.getUser account).isNone = true then _ else _) w
  by_cases huser : (w.getUser account).isNone = true
  · rw [if_pos huser]
    refine attempts_raiseError hkept (.inr (hrefuses fun hpersonal => ?_))
    rw [Option.isNone_iff_eq_none] at huser
    rw [MergeWorld.IsPersonalOrg, huser] at hpersonal
    exact Bool.false_ne_true hpersonal.1
  · rw [if_neg huser]
    rw [Bool.not_eq_true, Option.isNone_eq_false_iff] at huser
    refine attempts_perform hkept fun _ _ => ?_
    change Attempts around crash refuses _ (if
      ((w.listMembers account.orgId).filter fun m => m.removedAt.isNone).length ≠ 1 ∨
        ((w.listMembers account.orgId).filter fun m => m.removedAt.isNone).head?.map (·.userId) ≠
          some account.userId then _ else _) w
    generalize hmembers : (w.listMembers account.orgId).filter (fun m => m.removedAt.isNone) =
      members
    have hpersonal : w.IsPersonalOrg account ↔ members.map (·.userId) = [account.userId] := by
      rw [MergeWorld.IsPersonalOrg, hmembers, and_iff_right huser]
    have honly : members.map (·.userId) = [account.userId] ↔
        members.length = 1 ∧ members.head?.map (·.userId) = some account.userId := by
      match members with
      | [] => simp
      | [m] => simp
      | m :: m' :: rest => simp
    by_cases hcheck : members.length ≠ 1 ∨
        members.head?.map (·.userId) ≠ some account.userId
    · rw [if_pos hcheck]
      refine attempts_raiseError hkept (.inr (hrefuses fun h => ?_))
      obtain ⟨hlength, hhead⟩ := honly.mp (hpersonal.mp h)
      exact hcheck.elim (absurd hlength) (absurd hhead)
    · rw [if_neg hcheck]
      rw [not_or, not_not, not_not] at hcheck
      exact .done hkept ⟨rfl, hpersonal.mpr (honly.mpr hcheck)⟩

end Rules

/-- No merge has absorbed the account. -/
def Unmerged (w : MergeWorld ρ) (account : Account) : Prop :=
  ∀ id r, w.merges.find? id = some r → r.accounts.absorbed ≠ account

theorem createMerge_of_unmerged {record : AccountMergeRecord}
    (h : Unmerged w record.accounts.absorbed) :
    w.createMerge record = (.ok record, { w with merges := w.merges.put record }) := by
  rw [MergeWorld.createMerge, if_neg]
  rw [List.any_eq_true]
  rintro ⟨r, hmem, hactive⟩
  rw [Bool.and_eq_true, decide_eq_true_eq] at hactive
  exact h r.mergeId r (Table.mem_rows_iff.mp hmem) hactive.1

/-- A merge that begins has a record at its first checkpoint. -/
theorem attempts_beginMerge {request : MergeRequest}
    (hunmerged : Unmerged w₀ request.accounts.absorbed)
    (hfresh : w₀.merges.find? request.newMergeId = none)
    (hapart : request.accounts.absorbed ≠ request.accounts.survivor) :
    Attempts around (Begun service w₀ around.clock origins request.accounts)
      (¬Admissible w₀ request.accounts)
      (fun r w' => r.accounts = request.accounts ∧ r.mergeId = request.newMergeId ∧
        r.proofRef = request.proofRef ∧ Settled service w₀ around.clock origins 0 r w')
      (beginMerge request) w₀ := by
  have hkept : Begun service w₀ around.clock origins request.accounts w₀ := .inl rfl
  refine Program.Withstands.bind (attempts_checkPersonalOrg _ _ hkept
    fun hnot hadmissible => hnot hadmissible.absorbed) ?_
  rintro - w ⟨rfl, habsorbed⟩
  refine Program.Withstands.bind (attempts_checkPersonalOrg _ _ hkept
    fun hnot hadmissible => hnot hadmissible.survivor) ?_
  rintro - w ⟨rfl, hsurvivor⟩
  refine attempts_perform hkept fun startedAt _ => ?_
  refine attempts_perform hkept fun _ _ => ?_
  change Attempts around _ _ _ (Program.ofExcept (w.createMerge (request.record startedAt)).1)
    (w.createMerge (request.record startedAt)).2
  rw [createMerge_of_unmerged hunmerged]
  have hnew : Settled service w around.clock origins 0 (request.record startedAt)
      { w with merges := w.merges.put (request.record startedAt) } := by
    refine ⟨Nat.zero_le _, ⟨w.merges.find?_put_self (request.record startedAt), hfresh,
      fun id hid => w.merges.find?_put_of_ne (Ne.symm hid), ⟨hapart, habsorbed, hsurvivor⟩, rfl⟩,
      ?_⟩
    exact ⟨rfl, fun _ _ => rfl, rfl, rfl, rfl, rfl, rfl⟩
  exact .done (.inr ⟨_, rfl, hnew.underway, fun _ => hnew.checkpoint⟩) ⟨rfl, rfl, rfl, hnew⟩

theorem findByAbsorbed_of_unmerged {account : Account} (h : Unmerged w account) :
    w.findByAbsorbed account = [] := by
  refine List.eq_nil_iff_forall_not_mem.mpr fun r hmem => ?_
  rw [MergeWorld.findByAbsorbed, List.mem_insertionSort, List.mem_filter,
    decide_eq_true_eq] at hmem
  exact h r.mergeId r (Table.mem_rows_iff.mp hmem.1) hmem.2

section Underway
variable {r : AccountMergeRecord}

/-- The record of the merge that is under way is the only one of its absorbed account. -/
theorem Underway.eq_of_absorbed {r' : AccountMergeRecord} (hunderway : Underway w₀ r w)
    (hunmerged : Unmerged w₀ r.accounts.absorbed)
    (hstored : w.merges.find? r'.mergeId = some r')
    (habsorbed : r'.accounts.absorbed = r.accounts.absorbed) : r' = r := by
  by_cases hid : r'.mergeId = r.mergeId
  · rw [hid, hunderway.stored] at hstored
    exact (Option.some.inj hstored).symm
  · rw [hunderway.others _ hid] at hstored
    exact absurd habsorbed (hunmerged _ _ hstored)

theorem Underway.findByAbsorbed (hunderway : Underway w₀ r w)
    (hunmerged : Unmerged w₀ r.accounts.absorbed) :
    w.findByAbsorbed r.accounts.absorbed = [r] := by
  have hnodup : (w.findByAbsorbed r.accounts.absorbed).Nodup := by
    rw [MergeWorld.findByAbsorbed, (List.perm_insertionSort _ _).nodup_iff]
    exact w.merges.nodup_rows.filter _
  refine List.perm_singleton.mp ((List.perm_ext_iff_of_nodup hnodup (List.nodup_singleton r)).mpr
    fun r' => ?_)
  rw [MergeWorld.findByAbsorbed, List.mem_insertionSort, List.mem_filter, decide_eq_true_eq,
    Table.mem_rows_iff, List.mem_singleton]
  constructor
  · rintro ⟨hstored, habsorbed⟩
    exact hunderway.eq_of_absorbed hunmerged hstored habsorbed
  · rintro rfl
    exact ⟨hunderway.stored, rfl⟩

end Underway

theorem Anywhere.begun {r : AccountMergeRecord} {clock : Int → Prop}
    (h : Anywhere service w₀ clock origins r w) : Begun service w₀ clock origins r.accounts w := by
  obtain ⟨r', hcontinues, hmidway⟩ := h
  exact .inr ⟨r', hcontinues.2.1, hmidway⟩

theorem Settled.completed {r : AccountMergeRecord} {clock : Int → Prop}
    (h : Settled service w₀ clock origins 4 r w) : r.state = .completed := by
  have hreached := h.reached
  cases hstate : r.state with
  | completed => rfl
  | pending => rw [hstate] at hreached; exact absurd hreached (by decide)
  | backendDone => rw [hstate] at hreached; exact absurd hreached (by decide)
  | runtimeDone => rw [hstate] at hreached; exact absurd hreached (by decide)
  | sessionsRevoked => rw [hstate] at hreached; exact absurd hreached (by decide)

/-- A call that merges two accounts for the first time. -/
theorem attempts_mergeForConflict {request : MergeRequest}
    (hruntime : around.runtime = service.runtime) (horigin : origins request.origin)
    (hunmerged : Unmerged w₀ request.accounts.absorbed)
    (hfresh : w₀.merges.find? request.newMergeId = none) :
    Attempts around (Begun service w₀ around.clock origins request.accounts)
      (¬Admissible w₀ request.accounts)
      (fun r w' => r.accounts = request.accounts ∧ r.mergeId = request.newMergeId ∧
        r.proofRef = request.proofRef ∧ Settled service w₀ around.clock origins 4 r w')
      (mergeForConflict service request) w₀ := by
  have hkept : Begun service w₀ around.clock origins request.accounts w₀ := .inl rfl
  rw [mergeForConflict]
  by_cases hapart : request.accounts.absorbed = request.accounts.survivor
  · rw [if_pos hapart]
    exact attempts_raiseError hkept (.inr fun hadmissible => hadmissible.apart hapart)
  · rw [if_neg hapart]
    refine attempts_read [] (fun _ _ => Prod.ext (findByAbsorbed_of_unmerged hunmerged) rfl) ?_
    refine Program.Withstands.bind (attempts_beginMerge hunmerged hfresh hapart) ?_
    rintro r w ⟨haccounts, hid, hproof, hsettled⟩
    refine Endures.attempts (runs_run hruntime horigin hsettled) (fun w' hanywhere => ?_) ?_
    · rw [← haccounts]
      exact hanywhere.begun
    · rintro r' w' ⟨hcontinues, hlast⟩
      exact ⟨hcontinues.2.1.trans haccounts, hcontinues.1.trans hid, hcontinues.2.2.trans hproof,
        hlast⟩

/-- A call that merges two accounts again takes up the merge that is under way. -/
theorem attempts_mergeForConflict_again {request : MergeRequest} {r : AccountMergeRecord}
    (hruntime : around.runtime = service.runtime)
    (horigin : origins request.origin) (haccounts : request.accounts = r.accounts)
    (hunmerged : Unmerged w₀ r.accounts.absorbed)
    (hsettled : Settled service w₀ around.clock origins 0 r w) :
    Attempts around (Begun service w₀ around.clock origins r.accounts) False
      (fun r' w' => Continues r r' ∧ Settled service w₀ around.clock origins 4 r' w')
      (mergeForConflict service request) w := by
  have hkept := hsettled.anywhere.begun
  rw [mergeForConflict, haccounts, if_neg hsettled.underway.admissible.apart]
  refine attempts_read [r]
    (fun _ _ => Prod.ext (hsettled.underway.findByAbsorbed hunmerged) rfl) ?_
  dsimp only
  by_cases hcompleted : r.state = .completed
  · rw [if_pos hcompleted, if_pos rfl]
    exact .done hkept ⟨.refl r, by rw [hcompleted]; rfl, hsettled.underway, hsettled.checkpoint⟩
  · rw [if_neg hcompleted, if_pos rfl]
    exact Endures.attempts (runs_run hruntime horigin hsettled) (fun _ h => h.begun)
      fun _ _ h => h

/-- A call that resumes a merge takes it up, if there is one. -/
theorem attempts_resume {mergeId : String} {origin : RequestOrigin} (hfails : around.fails)
    (hruntime : around.runtime = service.runtime) (horigin : origins origin)
    (hkept : Begun service w₀ around.clock origins accounts w)
    (hfound : ∀ r, w.merges.find? mergeId = some r → r.accounts = accounts ∧
      Settled service w₀ around.clock origins 0 r w) :
    Attempts around (Begun service w₀ around.clock origins accounts) False
      (fun r w' => r.accounts = accounts ∧ Settled service w₀ around.clock origins 4 r w')
      (resume service mergeId origin) w := by
  cases hfind : w.merges.find? mergeId with
  | none =>
      refine attempts_read none (fun _ _ => Prod.ext hfind rfl) ?_
      exact attempts_raiseError hkept (.inl hfails)
  | some r =>
      obtain ⟨rfl, hsettled⟩ := hfound r hfind
      refine attempts_read (some r) (fun _ _ => Prod.ext hfind rfl) ?_
      refine Endures.attempts (runs_run hruntime horigin hsettled) (fun _ h => h.begun) ?_
      exact fun r' w' h => ⟨h.1.2.1, h.2⟩

end Calls

/-! ### Histories of a merge -/

section Histories
variable (service : MergeService ρ) (accounts : AccountPair) (clock : Int → Prop)
  (origins : RequestOrigin → Prop)

def MergeCall.origin : MergeCall → RequestOrigin
  | .mergeForConflict request => request.origin
  | .resume _ origin => origin

/-- The call is about the two accounts, and would give a new merge an id that is not taken. -/
def MergeCall.IsFor (w : MergeWorld ρ) : MergeCall → Prop
  | .mergeForConflict request =>
      request.accounts = accounts ∧ w.merges.find? request.newMergeId = none
  | .resume mergeId _ => ∀ r, w.merges.find? mergeId = some r → r.accounts = accounts

/-- A call returns, raises or dies at any point, and any of its operations may raise. -/
def Attempt (w w' : MergeWorld ρ) : Prop :=
  ∃ call : MergeCall, call.IsFor accounts w ∧ origins call.origin ∧
    ∃ rest, Program.Reaches (Surroundings.effect ⟨service.runtime, clock, True⟩)
      (call.program service) w rest w'

/-- A call returns, and none of its operations raises. -/
def Uninterrupted (w w' : MergeWorld ρ) : Prop :=
  ∃ request : MergeRequest, (MergeCall.mergeForConflict request).IsFor accounts w ∧
    origins request.origin ∧
    ∃ r, Program.Reaches (Surroundings.effect ⟨service.runtime, clock, False⟩)
      (mergeForConflict service request) w (.done r) w'

/-- An attempt left nothing half done that is counted or audited. -/
def Quiet (w₀ w : MergeWorld ρ) : Prop :=
  ∀ r, w.merges.find? r.mergeId = some r → r.accounts = accounts → Unstarted service w₀ r w

/-- Attempts follow one another, each of them quiet. -/
def QuietHistory (w₀ : MergeWorld ρ) : MergeWorld ρ → Prop :=
  Relation.ReflTransGen (fun w w' => Attempt service accounts clock origins w w' ∧
    Quiet service accounts w₀ w') w₀

/-- No merge of the accounts has begun, or one is at a checkpoint. -/
def Standing (w₀ w : MergeWorld ρ) : Prop :=
  w = w₀ ∨ ∃ r, r.accounts = accounts ∧ Settled service w₀ clock origins 0 r w

variable {service accounts clock origins} {w₀ w w' : MergeWorld ρ}

/-- A quiet attempt leads from one checkpoint to another. -/
theorem Standing.attempt (hunmerged : Unmerged w₀ accounts.absorbed)
    (h : Standing service accounts clock origins w₀ w)
    (hattempt : Attempt service accounts clock origins w w')
    (hquiet : Quiet service accounts w₀ w') : Standing service accounts clock origins w₀ w' := by
  obtain ⟨call, hcall, horigin, rest, hreaches⟩ := hattempt
  have hkept : ∀ {refuses : Prop} {post : AccountMergeRecord → MergeWorld ρ → Prop},
      Attempts ⟨service.runtime, clock, True⟩ (Begun service w₀ clock origins accounts) refuses post
        (call.program service) w → Begun service w₀ clock origins accounts w' :=
    fun hattempts => (hattempts.reaches hreaches).kept
  have hbegun : Begun service w₀ clock origins accounts w' := by
    obtain rfl | ⟨r, rfl, hsettled⟩ := h
    · cases call with
      | mergeForConflict request =>
          obtain ⟨rfl, hfresh⟩ := hcall
          exact hkept (attempts_mergeForConflict rfl horigin hunmerged hfresh)
      | resume mergeId origin =>
          refine hkept (attempts_resume trivial rfl horigin (.inl rfl) fun r hfind => ?_)
          exact absurd (congrArg _ (hcall r hfind)) (hunmerged mergeId r hfind)
    · cases call with
      | mergeForConflict request =>
          exact hkept (attempts_mergeForConflict_again rfl horigin hcall.1 hunmerged hsettled)
      | resume mergeId origin =>
          refine hkept (attempts_resume trivial rfl horigin hsettled.anywhere.begun
            fun r' hfind => ?_)
          have hstored : w.merges.find? r'.mergeId = some r' :=
            (Table.key_of_find? hfind).symm ▸ hfind
          obtain rfl := hsettled.underway.eq_of_absorbed hunmerged hstored
            (congrArg _ (hcall r' hfind))
          exact ⟨rfl, hsettled⟩
  obtain rfl | ⟨r, hr, hmidway⟩ := hbegun
  · exact .inl rfl
  · exact .inr ⟨r, hr, Nat.zero_le _, hmidway.1, hmidway.2 (hquiet r hmidway.1.stored hr)⟩

theorem QuietHistory.standing (hunmerged : Unmerged w₀ accounts.absorbed)
    (h : QuietHistory service accounts clock origins w₀ w) :
    Standing service accounts clock origins w₀ w := by
  induction h with
  | refl => exact .inl rfl
  | tail _ hstep ih => exact ih.attempt hunmerged hstep.1 hstep.2

end Histories

end CopilotRuntime.AccountMerge
