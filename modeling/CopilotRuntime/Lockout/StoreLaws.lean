import CopilotRuntime.Lockout.Service

/-!
# What an operation does to the lockouts

A lockout becomes active only by being stored, and becomes inactive only by an
unlock of its user. After an unlock the user has no active lockout.
-/

namespace CopilotRuntime.Lockout

open Foundation

variable {lower : String → String} {w w' : LockoutWorld} {n : Nat} {op : LockoutOp}
  {reply : op.Reply} {orgId userId : String} {r : AccountLockoutRecord}

/-- The row is among the lockouts and locks the user. -/
def LockoutWorld.Locked (w : LockoutWorld) (orgId userId : String) (r : AccountLockoutRecord) :
    Prop :=
  r ∈ w.lockouts.rows ∧ r.locks = some (orgId, userId)

theorem getActiveLockout_eq_some_iff :
    w.getActiveLockout orgId userId = some r ↔ w.Locked orgId userId r :=
  IndexedTable.lookup_eq_some_iff

theorem locked_createLockout {c : LockoutCandidate} {lockoutId : String}
    (h : (w.createLockout c lockoutId).2.Locked orgId userId r) :
    w.Locked orgId userId r ∨ (w.createLockout c lockoutId).1 = some r := by
  rw [LockoutWorld.createLockout] at h ⊢
  cases hinsert : w.lockouts.insert? (c.record lockoutId) with
  | none =>
      rw [hinsert] at h
      exact .inl h
  | some lockouts =>
      rw [hinsert] at h
      obtain ⟨-, hadmits, rfl⟩ := IndexedTable.insert?_eq_some hinsert
      obtain rfl | ⟨hold, -⟩ := (IndexedTable.mem_rows_put hadmits).mp h.1
      · exact .inr rfl
      · exact .inl ⟨hold, h.2⟩

theorem locked_unlock {o u : String} {unlockedBy : Option String} {reason : String}
    (h : (w.unlock o u unlockedBy reason).2.Locked orgId userId r) :
    w.Locked orgId userId r ∧ ¬ (orgId = o ∧ userId = u) := by
  rw [LockoutWorld.unlock] at h
  cases hactive : w.getActiveLockout o u with
  | none =>
      rw [hactive] at h
      refine ⟨h, ?_⟩
      rintro ⟨rfl, rfl⟩
      rw [getActiveLockout_eq_some_iff.mpr h] at hactive
      cases hactive
  | some active =>
      rw [hactive] at h
      obtain ⟨hmem, hlocks⟩ := getActiveLockout_eq_some_iff.mp hactive
      have hadmits := Lockouts.admits_unlocked w.lockouts active w.clock unlockedBy reason
      obtain rfl | ⟨hold, hid⟩ := (IndexedTable.mem_rows_put hadmits).mp h.1
      · cases h.2
      · refine ⟨⟨hold, h.2⟩, ?_⟩
        rintro ⟨rfl, rfl⟩
        obtain rfl := w.lockouts.unique r hold active hmem _ h.2 hlocks
        exact hid rfl

/-- The event is one of an operation that stored the lockout. -/
def Stores (event : LockoutEvent) (r : AccountLockoutRecord) : Prop :=
  ∃ n c, event = .performed n (.createLockout c) (some r)

/-- The event is an unlock of the user. -/
def Unlocks (event : LockoutEvent) (orgId userId : String) : Prop :=
  ∃ n unlockedBy reason reply, event = .performed n (.unlock orgId userId unlockedBy reason) reply

theorem not_unlocks {op : LockoutOp} {reply : op.Reply}
    (h : ∀ o u unlockedBy reason, op = .unlock o u unlockedBy reason → ¬ (orgId = o ∧ userId = u)) :
    ¬ Unlocks (.performed n op reply) orgId userId := by
  rintro ⟨_, unlockedBy, reason, _, hevent⟩
  injection hevent with _ hop
  exact h _ _ unlockedBy reason hop ⟨rfl, rfl⟩

/-- A lockout that is active was so before, or was stored just now. -/
theorem locked_of_env (h : LockoutWorld.env lower op w reply w')
    (hlocked : w'.Locked orgId userId r) :
    (w.Locked orgId userId r ∧ ¬ Unlocks (.performed n op reply) orgId userId) ∨
      Stores (.performed n op reply) r := by
  obtain ⟨clock, lockoutId, -, -, heq⟩ := h
  obtain rfl : w' = _ := congrArg Prod.snd heq
  cases op with
  | createLockout c =>
      obtain rfl : reply = (LockoutWorld.createLockout _ c lockoutId).1 := congrArg Prod.fst heq
      obtain hold | hnew := locked_createLockout hlocked
      · exact .inl ⟨hold, not_unlocks fun _ _ _ _ hop => by cases hop⟩
      · exact .inr ⟨n, c, congrArg _ hnew⟩
  | unlock o u unlockedBy reason =>
      obtain ⟨hold, hother⟩ := locked_unlock hlocked
      refine .inl ⟨hold, not_unlocks fun _ _ _ _ hop => ?_⟩
      cases hop
      exact hother
  | _ => exact .inl ⟨hlocked, not_unlocks fun _ _ _ _ hop => by cases hop⟩

theorem locked_after_createLockout {c : LockoutCandidate} {lockoutId : String}
    (hfresh : w.lockouts.find? lockoutId = none) (h : w.Locked orgId userId r) :
    (w.createLockout c lockoutId).2.Locked orgId userId r := by
  rw [LockoutWorld.createLockout]
  cases hinsert : w.lockouts.insert? (c.record lockoutId) with
  | none => exact h
  | some lockouts =>
      obtain ⟨-, hadmits, rfl⟩ := IndexedTable.insert?_eq_some hinsert
      refine ⟨(IndexedTable.mem_rows_put hadmits).mpr (.inr ⟨h.1, fun hid => ?_⟩), h.2⟩
      rw [← show r.lockoutId = lockoutId from hid, IndexedTable.mem_rows_iff.mp h.1] at hfresh
      cases hfresh

theorem locked_after_unlock {o u : String} {unlockedBy : Option String} {reason : String}
    (hother : ¬ (orgId = o ∧ userId = u)) (h : w.Locked orgId userId r) :
    (w.unlock o u unlockedBy reason).2.Locked orgId userId r := by
  rw [LockoutWorld.unlock]
  cases hactive : w.getActiveLockout o u with
  | none => exact h
  | some active =>
      have hadmits := Lockouts.admits_unlocked w.lockouts active w.clock unlockedBy reason
      refine ⟨(IndexedTable.mem_rows_put hadmits).mpr (.inr ⟨h.1, fun hid => hother ?_⟩), h.2⟩
      obtain ⟨hmem, hlocks⟩ := getActiveLockout_eq_some_iff.mp hactive
      obtain rfl := IndexedTable.eq_of_mem_rows h.1 hmem hid
      obtain ⟨rfl, rfl⟩ := Prod.mk.inj (Option.some.inj (h.2.symm.trans hlocks))
      exact ⟨rfl, rfl⟩

/-- A lockout that is no longer active was ended by an unlock of its user. -/
theorem unlocks_of_not_locked (h : LockoutWorld.env lower op w reply w')
    (hbefore : w.Locked orgId userId r) (hafter : ¬ w'.Locked orgId userId r) :
    Unlocks (.performed n op reply) orgId userId := by
  obtain ⟨clock, lockoutId, -, hfresh, heq⟩ := h
  obtain rfl : w' = _ := congrArg Prod.snd heq
  cases op with
  | createLockout c => exact (hafter (locked_after_createLockout hfresh hbefore)).elim
  | unlock o u unlockedBy reason =>
      by_cases huser : orgId = o ∧ userId = u
      · obtain ⟨rfl, rfl⟩ := huser
        exact ⟨n, unlockedBy, reason, reply, rfl⟩
      · exact (hafter (locked_after_unlock huser hbefore)).elim
  | _ => exact absurd hbefore hafter

/-- No operation changes a policy or puts the clock back. -/
theorem frame_of_env (h : LockoutWorld.env lower op w reply w') :
    w'.policies = w.policies ∧ w.clock ≤ w'.clock := by
  obtain ⟨clock, lockoutId, hclock, -, heq⟩ := h
  obtain rfl : w' = _ := congrArg Prod.snd heq
  cases op with
  | createLockout c =>
      dsimp only [LockoutWorld.answer, LockoutWorld.createLockout]
      split
      · exact ⟨rfl, hclock⟩
      · exact ⟨rfl, hclock⟩
  | unlock o u unlockedBy reason =>
      dsimp only [LockoutWorld.answer, LockoutWorld.unlock]
      split
      · exact ⟨rfl, hclock⟩
      · exact ⟨rfl, hclock⟩
  | _ => exact ⟨rfl, hclock⟩

theorem now_of_env {now : Int} (h : LockoutWorld.env lower .now w now w') : now = w'.clock := by
  obtain ⟨clock, lockoutId, -, -, heq⟩ := h
  obtain ⟨rfl, rfl⟩ := Prod.mk.inj heq
  rfl

theorem policy_of_env {policy : Option LockoutPolicyRecord}
    (h : LockoutWorld.env lower (.getPolicy orgId) w policy w') :
    policy = w.policies.get? orgId := by
  obtain ⟨clock, lockoutId, -, -, heq⟩ := h
  exact congrArg Prod.fst heq

/-- A lookup finds every active lockout of the user. -/
theorem lookup_of_env {active : Option AccountLockoutRecord}
    (h : LockoutWorld.env lower (.getActiveLockout orgId userId) w active w')
    (hlocked : w'.Locked orgId userId r) : active = some r := by
  obtain ⟨clock, lockoutId, -, -, heq⟩ := h
  obtain ⟨rfl, rfl⟩ := Prod.mk.inj heq
  exact getActiveLockout_eq_some_iff.mpr hlocked

end CopilotRuntime.Lockout
