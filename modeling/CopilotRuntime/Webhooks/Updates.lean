import CopilotRuntime.Webhooks.Runs

/-!
# Updates of a webhook in a run

As long as the fields that a call does not mean to set have not changed since it
read the row, no update of another call is lost.
-/

namespace CopilotRuntime.Webhooks

open Foundation

variable {isNetwork : String → Bool} {w₀ : WebhookWorld} {trace : List WebhookEvent} {n : Nat}

/-! ### One step -/

section Steps
variable {w w' : WebhookWorld} {id : String} {stored : WebhookRecord} {f : WebhookField}

/-- A soft deletion finds no row, finds it deleted, or marks it as deleted. -/
theorem softDelete_cases (w : WebhookWorld) (tenantId webhookId : String) :
    w.softDeleteWebhook tenantId webhookId = (false, w) ∨
    ((∃ r, w.webhooks.find? webhookId = some r ∧ r.deletedAt.isSome = true) ∧
      w.softDeleteWebhook tenantId webhookId = (true, w)) ∨
    ∃ r, w.webhooks.find? webhookId = some r ∧ w.softDeleteWebhook tenantId webhookId =
      (true, { w with webhooks := w.webhooks.put { r with deletedAt := some w.clock } }) := by
  rw [WebhookWorld.softDeleteWebhook]
  split
  · exact .inl rfl
  · next r hr =>
      obtain ⟨hfound, -⟩ := Option.filter_eq_some_iff.mp hr
      split
      · next hdeleted => exact .inr (.inl ⟨⟨r, hfound, hdeleted⟩, rfl⟩)
      · exact .inr (.inr ⟨r, hfound, rfl⟩)

/-- A soft deletion that succeeds leaves the row deleted. -/
theorem deleted_of_env {tenantId : String}
    (henv : WebhookWorld.env (.softDeleteWebhook tenantId id) w true w') :
    ∃ r, w'.webhooks.find? id = some r ∧ r.deletedAt.isSome = true := by
  obtain ⟨clock, draw, -, hanswer⟩ := henv
  change (true, w') = WebhookWorld.softDeleteWebhook _ tenantId id at hanswer
  obtain heq | ⟨⟨r, hfound, hdeleted⟩, heq⟩ | ⟨r, hfound, heq⟩ :=
    softDelete_cases { w with clock := clock } tenantId id
  · rw [heq] at hanswer
    cases hanswer
  · rw [heq] at hanswer
    cases hanswer
    exact ⟨r, hfound, hdeleted⟩
  · rw [heq] at hanswer
    cases hanswer
    refine ⟨{ r with deletedAt := some clock }, ?_, rfl⟩
    obtain rfl := Table.key_of_find? hfound
    exact Table.find?_put_self _ _

/-- Another operation than a write leaves the rows as they are. -/
theorem webhooks_of_plain {op : WebhookOp} {reply : op.Reply}
    (henv : WebhookWorld.env op w reply w') (hplain : Plain op) : w'.webhooks = w.webhooks := by
  obtain ⟨clock, draw, -, hanswer⟩ := henv
  obtain rfl : w' = _ := congrArg Prod.snd hanswer
  cases op with
  | updateWebhook record => exact hplain.elim
  | softDeleteWebhook tenantId webhookId => exact hplain.elim
  | claimDueForRotation now limit =>
      change (WebhookWorld.claimDueForRotation _ now limit).2.webhooks = _
      rw [WebhookWorld.claimDueForRotation]
      split
      · rfl
      · rfl
  | _ => rfl

/-- A soft deletion changes one field of one row at most. -/
theorem find?_of_softDelete {tenantId webhookId : String} {ok : Bool}
    (henv : WebhookWorld.env (.softDeleteWebhook tenantId webhookId) w ok w')
    (hstored : w.webhooks.find? id = some stored) :
    w'.webhooks.find? id = some stored ∨ (ok = true ∧ webhookId = id ∧
      ∃ clock, w'.webhooks.find? id = some { stored with deletedAt := some clock }) := by
  obtain ⟨clock, draw, -, hanswer⟩ := henv
  change (ok, w') = WebhookWorld.softDeleteWebhook _ tenantId webhookId at hanswer
  obtain heq | ⟨-, heq⟩ | ⟨r, hfound, heq⟩ :=
    softDelete_cases { w with clock := clock } tenantId webhookId
  · rw [heq] at hanswer
    cases hanswer
    exact .inl hstored
  · rw [heq] at hanswer
    cases hanswer
    exact .inl hstored
  · rw [heq] at hanswer
    cases hanswer
    have hkey := Table.key_of_find? hfound
    by_cases hid : webhookId = id
    · subst hid
      obtain rfl := Option.some.inj (hfound.symm.trans hstored)
      refine .inr ⟨rfl, rfl, clock, ?_⟩
      subst hkey
      exact Table.find?_put_self _ _
    · refine .inl ((Table.find?_put_of_ne _ ?_).trans hstored)
      exact fun heq => hid (hkey.symm.trans heq)

/-- A write by a call that does not mean to set a field leaves the field of the row. -/
theorem same_of_update {record reply : WebhookRecord} (hstored : w.webhooks.find? id = some stored)
    (hbacked : Backed trace (.performed n (.updateWebhook record) reply))
    (hfresh : Fresh trace w (.performed n (.updateWebhook record) reply))
    (hmeans : record.id = id → ∀ call, .started n call ∈ trace → ¬ call.Means f) :
    ∃ stored', (w.webhooks.put record).find? id = some stored' ∧ f.Same stored' stored := by
  obtain ⟨call, r, hstarted, hread, hmakes⟩ := hbacked
  by_cases hid : record.id = id
  · subst hid
    refine ⟨record, Table.find?_put_self _ _, ?_⟩
    have hnot := hmeans rfl call hstarted
    have hold := hfresh call r stored f hstarted hread hmakes.id.symm
      (by rw [← hmakes.id, hstored]) hnot
    exact (hmakes.same hnot).trans hold.symm
  · exact ⟨stored, by rw [Table.find?_put_of_ne _ hid, hstored], .refl f stored⟩

/-- A step keeps every field that its call does not mean to set. -/
theorem same_of_env {op : WebhookOp} {reply : op.Reply}
    (henv : WebhookWorld.env op w reply w') (hbacked : Backed trace (.performed n op reply))
    (hfresh : Fresh trace w (.performed n op reply))
    (hstored : w.webhooks.find? id = some stored)
    (hspared : ¬ Sets trace id f (.performed n op reply)) :
    ∃ stored', w'.webhooks.find? id = some stored' ∧ f.Same stored' stored := by
  cases op with
  | updateWebhook record =>
      rw [(updated_of_env henv).2]
      refine same_of_update hstored hbacked hfresh fun hid call hstarted hmeans => hspared ?_
      exact ⟨n, call, .update hid, hstarted, hmeans⟩
  | softDeleteWebhook tenantId webhookId =>
      obtain hsame | ⟨rfl, rfl, clock, hdeleted⟩ := find?_of_softDelete henv hstored
      · exact ⟨stored, hsame, .refl f stored⟩
      · refine ⟨_, hdeleted, ?_⟩
        cases f with
        | deletedAt =>
            obtain ⟨call, hstarted, hmeans⟩ := hbacked
            exact absurd ⟨n, call, .delete, hstarted, hmeans⟩ hspared
        | _ => rfl
  | _ =>
      rw [webhooks_of_plain henv trivial]
      exact ⟨stored, hstored, .refl f stored⟩

/-- A call that writes a row back does not mean to delete it or to bring it back. -/
theorem not_means_deletedAt {call : WebhookCall} {r record : WebhookRecord}
    (h : call.Makes r record) : ¬ call.Means .deletedAt := by
  cases call with
  | delete caller webhookId => exact h.elim
  | _ => exact id

/-- A deleted webhook stays deleted. -/
theorem deleted_of_step {op : WebhookOp} {reply : op.Reply}
    (henv : WebhookWorld.env op w reply w') (hbacked : Backed trace (.performed n op reply))
    (hfresh : Fresh trace w (.performed n op reply))
    (hunique : ∀ call call', .started n call ∈ trace → .started n call' ∈ trace → call = call')
    (hstored : w.webhooks.find? id = some stored) (hdeleted : stored.deletedAt.isSome = true) :
    ∃ stored', w'.webhooks.find? id = some stored' ∧ stored'.deletedAt.isSome = true := by
  cases op with
  | updateWebhook record =>
      rw [(updated_of_env henv).2]
      have hmaker := hbacked
      obtain ⟨maker, r, hmaker, -, hmakes⟩ := hmaker
      obtain ⟨stored', hfound, hsame⟩ := same_of_update (f := .deletedAt) hstored hbacked hfresh
        fun _ call hstarted => hunique maker call hmaker hstarted ▸ not_means_deletedAt hmakes
      refine ⟨stored', hfound, ?_⟩
      change stored'.deletedAt = stored.deletedAt at hsame
      rw [hsame, hdeleted]
  | softDeleteWebhook tenantId webhookId =>
      obtain hsame | ⟨-, -, clock, hfound⟩ := find?_of_softDelete henv hstored
      · exact ⟨stored, hsame, hdeleted⟩
      · exact ⟨_, hfound, rfl⟩
  | _ =>
      rw [webhooks_of_plain henv trivial]
      exact ⟨stored, hstored, hdeleted⟩

end Steps

/-! ### Runs -/

section Guarded
variable {c c' : List WebhookEvent × WebhookPool} {id : String} {stored : WebhookRecord}
  {f : WebhookField}

/-- A step of a run in which no call writes back what others have changed meanwhile. -/
abbrev FreshStep (isNetwork : String → Bool) : List WebhookEvent × WebhookPool →
    List WebhookEvent × WebhookPool → Prop :=
  Advances (WebhookCall.body isNetwork) WebhookWorld.env Fresh

theorem Sets.mono {trace' : List WebhookEvent} {event : WebhookEvent} (h : Sets trace id f event)
    (hsub : ∀ e ∈ trace, e ∈ trace') : Sets trace' id f event := by
  obtain ⟨n, call, hwrites, hstarted, hmeans⟩ := h
  exact ⟨n, call, hwrites, hsub _ hstarted, hmeans⟩

/-- A field keeps its value over any number of steps of which none means to set it. -/
theorem same_of_freshSteps
    (run : Run (WebhookCall.body isNetwork) WebhookWorld.env w₀ c.1 c.2)
    (h : Relation.ReflTransGen (FreshStep isNetwork) c c')
    (hstored : c.2.shared.webhooks.find? id = some stored)
    (hspared : ∀ later event, c'.1 = c.1 ++ later → event ∈ later → ¬ Sets c'.1 id f event) :
    ∃ stored', c'.2.shared.webhooks.find? id = some stored' ∧ f.Same stored' stored := by
  induction h with
  | refl => exact ⟨stored, hstored, .refl f stored⟩
  | @tail d d' hsteps hstep ih =>
      obtain ⟨events, next⟩ := d'
      obtain ⟨event, htrace, step, hfresh⟩ := hstep
      dsimp only at htrace
      obtain ⟨earlier, hearlier⟩ := prefix_of_advances hsteps
      have hsub : ∀ e ∈ d.1, e ∈ events := fun e he => htrace ▸ List.mem_append_left _ he
      have hlater : events = c.1 ++ (earlier ++ [event]) := by
        rw [htrace, ← hearlier, List.append_assoc]
      obtain ⟨found, hfound, hsame⟩ := ih fun later e hsplit he hsets => by
        rw [← hearlier, List.append_cancel_left_eq] at hsplit
        subst hsplit
        exact hspared _ e hlater (List.mem_append_left _ he) (hsets.mono hsub)
      have hrun := run.of_advances hsteps
      have hbacked := (hrun.snoc step).invariant (webhooksVerified w₀)
      rw [eachAfter_snoc] at hbacked
      have hevent : ¬ Sets d.1 id f event := fun hsets =>
        hspared _ event hlater (List.mem_append_right _ (List.mem_singleton.mpr rfl))
          (hsets.mono hsub)
      cases step with
      | start call => exact ⟨found, hfound, hsame⟩
      | stop running => exact ⟨found, hfound, hsame⟩
      | perform running effect =>
          obtain ⟨stored', hstored', hsame'⟩ :=
            same_of_env effect hbacked.2 hfresh hfound hevent
          exact ⟨stored', hstored', hsame'.trans hsame⟩

/-- A deleted webhook stays deleted over any number of steps. -/
theorem deleted_of_freshSteps
    (run : Run (WebhookCall.body isNetwork) WebhookWorld.env w₀ c.1 c.2)
    (h : Relation.ReflTransGen (FreshStep isNetwork) c c')
    (hstored : c.2.shared.webhooks.find? id = some stored)
    (hdeleted : stored.deletedAt.isSome = true) :
    ∃ stored', c'.2.shared.webhooks.find? id = some stored' ∧ stored'.deletedAt.isSome = true := by
  induction h with
  | refl => exact ⟨stored, hstored, hdeleted⟩
  | @tail d d' hsteps hstep ih =>
      obtain ⟨events, next⟩ := d'
      obtain ⟨event, htrace, step, hfresh⟩ := hstep
      obtain ⟨found, hfound, hgone⟩ := ih
      have hrun := run.of_advances hsteps
      have hbacked := (hrun.snoc step).invariant (webhooksVerified w₀)
      rw [eachAfter_snoc] at hbacked
      cases step with
      | start call => exact ⟨found, hfound, hgone⟩
      | stop running => exact ⟨found, hfound, hgone⟩
      | perform running effect =>
          exact deleted_of_step effect hbacked.2 hfresh (fun _ _ => hrun.started_unique) hfound hgone

/-- A call that fails has written nothing. -/
theorem silent_of_raised {e : WebhookError}
    (h : Relation.ReflTransGen (FreshStep isNetwork) ([], Pool.initial w₀) c)
    (hraised : c.2.tasks n = some (.raised e)) : Silent n c.1 := by
  have hrun := Run.nil.of_advances h
  have hsafe := (hrun.safe (webhooksVerified w₀)).2 n _ hraised
  cases hsafe with
  | raised holds =>
      obtain hsilent | ⟨before, plaintext, message, after, hown, hwritten⟩ := holds
      · intro id event hevent hwrites
        refine hsilent id event (mem_ownEvents.mpr ⟨hevent, ?_⟩) hwrites
        cases hwrites with
        | _ => rfl
      · obtain ⟨earlier, later, htrace, rfl, -⟩ := exists_split_of_ownEvents hown
        obtain ⟨s, hfresh⟩ := eachAfter_of_advances h eachAfter_nil earlier _ later htrace
        refine absurd (fun id event hevent => ?_) hwritten
        exact hfresh id event (mem_ownEvents.mp hevent).1

theorem Confirmed.mono {events : List WebhookEvent}
    {value : WebhookResult} (h : Confirmed n (.ok value) events)
    (hsub : ∀ event ∈ events, event ∈ trace) : Confirmed n (.ok value) trace := by
  cases value with
  | updated record =>
      refine h.imp (hsub _) ?_
      rintro ⟨caller, webhookId, changes, hstarted, hempty⟩
      exact ⟨caller, webhookId, changes, hsub _ hstarted, hempty⟩
  | rotated results =>
      exact fun result hresult => ⟨hsub _ (h result hresult).1, hsub _ (h result hresult).2⟩
  | deleted =>
      obtain ⟨tenantId, id, ok, hmem⟩ := h
      exact ⟨tenantId, id, ok, hsub _ hmem⟩

/-- A write stores the row that its call makes of a row it has read. -/
theorem stored_of_update {record reply : WebhookRecord} {earlier : List WebhookEvent}
    (h : Relation.ReflTransGen (FreshStep isNetwork) ([], Pool.initial w₀) c)
    (htrace : c.1 = earlier ++ [Event.performed n (WebhookOp.updateWebhook record) reply]) :
    c.2.shared.webhooks.find? record.id = some record ∧ ∃ call r,
      .started n call ∈ c.1 ∧ ReadBy n r c.1 ∧ call.Makes r record := by
  obtain ⟨trace, pool⟩ := c
  dsimp only at htrace
  subst htrace
  have hbacked := (Run.nil.of_advances h).invariant (webhooksVerified w₀)
  obtain ⟨call, r, hstarted, hread, hmakes⟩ := (eachAfter_snoc.mp hbacked).2
  refine ⟨?_, call, r, List.mem_append_left _ hstarted,
    hread.mono fun _ => List.mem_append_left _, hmakes⟩
  obtain heq | ⟨d, -, event, heq, step, -⟩ := h.cases_tail
  · cases earlier with
    | nil => cases heq
    | cons _ _ => cases heq
  · obtain ⟨-, hevent⟩ := List.append_inj' heq rfl
    obtain rfl := (List.cons.inj hevent).1
    cases step with
    | perform running effect =>
        rw [(updated_of_env effect).2]
        exact Table.find?_put_self _ _

theorem stored_of_delete {tenantId : String} {earlier : List WebhookEvent}
    (h : Relation.ReflTransGen (FreshStep isNetwork) ([], Pool.initial w₀) c)
    (htrace : c.1 = earlier ++ [Event.performed n (WebhookOp.softDeleteWebhook tenantId id) true]) :
    ∃ r, c.2.shared.webhooks.find? id = some r ∧ r.deletedAt.isSome = true := by
  obtain ⟨trace, pool⟩ := c
  dsimp only at htrace
  subst htrace
  obtain heq | ⟨d, -, event, heq, step, -⟩ := h.cases_tail
  · cases earlier with
    | nil => cases heq
    | cons _ _ => cases heq
  · obtain ⟨-, hevent⟩ := List.append_inj' heq rfl
    obtain rfl := (List.cons.inj hevent).1
    cases step with
    | perform running effect => exact deleted_of_env effect

end Guarded

namespace Sample

def record : WebhookRecord where
  id := "trig-1"
  tenantId := "org-1"
  ownerUserId := "user-1"
  url := "https://old"
  vaultRef := "vault:old-secret"
  rotatesAt := some 0
  createdAt := 0
  updatedAt := 0

def world : WebhookWorld := ⟨0, Table.empty.put record, [], [], 0⟩

def caller : Caller := ⟨"org-1", "user-1", []⟩

def updateUrl : WebhookCall := .update caller "trig-1" { url := some "https://new" }

def play (moves : List (Move WebhookCall)) : List WebhookEvent × WebhookPool :=
  Pool.play WebhookWorld.atOnce (WebhookCall.body fun _ => true) world moves

/-- One update alone. -/
def alone : List (Move WebhookCall) := .start updateUrl :: List.replicate 6 (.perform 0)

/-- An update has read the row when another call runs to its end. -/
def overtaken (call : WebhookCall) : List (Move WebhookCall) :=
  [.start updateUrl, .perform 0, .start call] ++ List.replicate 12 (.perform 1) ++
    List.replicate 5 (.perform 0)

def stored (run : List WebhookEvent × WebhookPool) : Option WebhookRecord :=
  run.2.shared.webhooks.find? "trig-1"

def isWrite : WebhookEvent → Bool
  | .performed _ (.updateWebhook _) _ | .performed _ (.softDeleteWebhook _ _) _ => true
  | _ => false

/-- The rows that an event reads. -/
def found : WebhookEvent → List WebhookRecord
  | .performed _ (.getWebhook _ _) reply => reply.toList
  | .performed _ (.claimDueForRotation _ _) (.ok rows) => rows
  | _ => []

def vaultFails : WebhookEvent → Bool
  | .performed _ (.encrypt _) (.error _) => true
  | _ => false

theorem mem_found_of_readBy {r : WebhookRecord} (h : ReadBy n r trace) : r ∈ trace.flatMap found := by
  obtain ⟨tenantId, webhookId, hread⟩ | ⟨now, limit, rows, hread, hmem⟩ := h
  · exact List.mem_flatMap.mpr ⟨_, hread, Option.mem_toList.mpr rfl⟩
  · exact List.mem_flatMap.mpr ⟨_, hread, hmem⟩

/-- Without writes the rows stay as they are. -/
theorem webhooks_of_unwritten {pool : WebhookPool}
    (run : Run (WebhookCall.body isNetwork) WebhookWorld.env w₀ trace pool)
    (h : ∀ event ∈ trace, isWrite event = false) : pool.shared.webhooks = w₀.webhooks := by
  induction run with
  | nil => rfl
  | @snoc trace pool event next run step ih =>
      have hold := ih fun e he => h e (List.mem_append_left _ he)
      have hevent := h event (List.mem_append_right _ (List.mem_singleton.mpr rfl))
      cases step with
      | start call => exact hold
      | stop running => exact hold
      | @perform m op resume reply s running effect =>
          refine (webhooks_of_plain effect ?_).trans hold
          cases op with
          | updateWebhook record => cases hevent
          | softDeleteWebhook tenantId webhookId => cases hevent
          | _ => exact trivial

/-- A run that writes once at most, and in which the vault does not fail, writes back only what
has not changed. -/
theorem freshSteps_of_run {pool : WebhookPool}
    (run : Run (WebhookCall.body isNetwork) WebhookWorld.env w₀ trace pool)
    (hwrites : trace.countP isWrite ≤ 1) (hvault : trace.any vaultFails = false)
    (hfound : ∀ r ∈ trace.flatMap found, w₀.webhooks.find? r.id = some r) :
    Relation.ReflTransGen (FreshStep isNetwork) ([], Pool.initial w₀) (trace, pool) := by
  refine run.advances fun earlier p event next hrun _ hprefix => ?_
  obtain ⟨later, rfl⟩ := hprefix
  cases event with
  | started m call => exact trivial
  | stopped m => exact trivial
  | performed m op reply =>
      cases op with
      | updateWebhook record =>
          intro call r stored f _ hread _ hstored _
          have hnone : ∀ e ∈ earlier, isWrite e = false := by
            intro e he
            have hpos : isWrite e = true → 0 < earlier.countP isWrite :=
              fun hw => List.countP_pos_iff.mpr ⟨e, he, hw⟩
            rw [List.countP_append, List.countP_append, List.countP_singleton] at hwrites
            have hlast : isWrite (.performed m (.updateWebhook record) reply) = true := rfl
            rw [if_pos hlast] at hwrites
            by_contra hw
            have := hpos (by simpa using hw)
            omega
          rw [webhooks_of_unwritten hrun hnone] at hstored
          have hmem := mem_found_of_readBy hread
          have hr := hfound r (by
            rw [List.flatMap_append, List.flatMap_append]
            exact List.mem_append_left _ (List.mem_append_left _ hmem))
          rw [hr] at hstored
          obtain rfl := Option.some.inj hstored
          exact .refl f r
      | encrypt plaintext =>
          cases reply with
          | ok vaultRef => exact trivial
          | error message =>
              rw [List.any_append, List.any_append] at hvault
              simp [vaultFails] at hvault
      | _ => exact trivial

def starts : WebhookEvent → Option WebhookCall
  | .started _ call => some call
  | _ => none

theorem run_play (moves : List (Move WebhookCall)) :
    Run (WebhookCall.body fun _ => true) WebhookWorld.env world (play moves).1 (play moves).2 :=
  Run.play WebhookWorld.atOnce_sound moves

def aloneFacts : PLift (((play alone).1.countP isWrite ≤ 1 ∧
    (play alone).1.any vaultFails = false ∧
    ∀ r ∈ (play alone).1.flatMap found, world.webhooks.find? r.id = some r) ∧
    (play alone).1.filterMap starts = [updateUrl] ∧
    (stored (play alone)).map WebhookRecord.url = some "https://new") :=
  ⟨by decide +kernel⟩

end Sample

end CopilotRuntime.Webhooks
