import CopilotRuntime.Webhooks.Fields

/-!
# Calls of the webhook service

What a call writes is made of a row that the call has read, and a call that fails
has written nothing unless the vault failed for it after a write.
-/

namespace CopilotRuntime.Webhooks

open Foundation

variable {isNetwork : String → Bool} {w₀ : WebhookWorld} {trace : List WebhookEvent} {n : Nat}

/-! ### What a write rests on -/

/-- What the write of an event rests on. -/
def Backed (earlier : List WebhookEvent) : WebhookEvent → Prop
  | .performed n (.updateWebhook record) _ => ∃ call r,
      .started n call ∈ earlier ∧ ReadBy n r earlier ∧ call.Makes r record
  | .performed n (.softDeleteWebhook _ _) _ => ∃ call : WebhookCall,
      .started n call ∈ earlier ∧ call.Means .deletedAt
  | _ => True

/-- The program's writes are backed and it ends with the postcondition. -/
abbrev Keeps {α : Type} (n : Nat) (post : Except WebhookError α → List WebhookEvent → Prop)
    (p : WebhookProgram α) (own : List WebhookEvent) : Prop :=
  Safe WebhookWorld.env (fun trace _ => EachAfter Backed trace) n post p own

/-- An operation that writes no row. -/
def Plain : WebhookOp → Prop
  | .updateWebhook _ | .softDeleteWebhook _ _ => False
  | _ => True

variable {op : WebhookOp}

theorem backed_of_plain {reply : op.Reply} (h : Plain op) :
    Backed trace (.performed n op reply) := by
  cases op with
  | updateWebhook record => exact h.elim
  | softDeleteWebhook tenantId webhookId => exact h.elim
  | _ => exact trivial

theorem not_writes_of_plain {reply : op.Reply} (h : Plain op) (id : String) :
    ¬ Writes n id (.performed n op reply) := by
  rintro (hid | _)
  · exact h
  · exact h

/-- The task has written no row. -/
def Silent (n : Nat) (events : List WebhookEvent) : Prop :=
  ∀ id, ∀ event ∈ events, ¬ Writes n id event

theorem silent_started (call : WebhookCall) : Silent n [.started n call] := by
  intro id event hevent hwrites
  rw [List.mem_singleton] at hevent
  subst hevent
  cases hwrites

variable {events : List WebhookEvent}

theorem Silent.append {more : List WebhookEvent} (h : Silent n events) (hmore : Silent n more) :
    Silent n (events ++ more) := by
  intro id event hevent
  obtain hevent | hevent := List.mem_append.mp hevent
  · exact h id event hevent
  · exact hmore id event hevent

theorem silent_of_plain {reply : op.Reply} (h : Plain op) :
    Silent n [.performed n op reply] := by
  intro id event hevent
  rw [List.mem_singleton] at hevent
  subst hevent
  exact not_writes_of_plain h id

variable {own : List WebhookEvent}

theorem keeps_await {α : Type} {post : Except WebhookError α → List WebhookEvent → Prop}
    {resume : op.Reply → WebhookProgram α} (hplain : Plain op)
    (h : ∀ w reply w', WebhookWorld.env op w reply w' →
      Keeps n post (resume reply) (own ++ [Event.performed n op reply])) :
    Keeps n post (.await op resume) own := by
  refine .of_await fun trace w reply w' hbacked _ henv => ⟨?_, h w reply w' henv⟩
  exact eachAfter_snoc.mpr ⟨hbacked, backed_of_plain hplain⟩

/-! ### Reading and writing back -/

/-- A row that a write may follow is one that the task has read. -/
theorem authorizeWrite_keeps (caller : Caller) (webhookId : String) (own : List WebhookEvent) :
    Keeps n
      (fun result events => (∃ more, events = own ++ more ∧ Silent n more) ∧
        ∀ r, result = .ok r → ReadBy n r events)
      (authorizeWrite caller webhookId) own := by
  refine keeps_await trivial fun w found w' _ => ?_
  have hmore : Silent n [.performed n (.getWebhook caller.tenantId webhookId) found] :=
    silent_of_plain trivial
  change Keeps n _ (.ofExcept (writable caller webhookId found)) _
  cases hwritable : writable caller webhookId found with
  | error e =>
      refine .raised ⟨⟨_, rfl, hmore⟩, fun r hr => ?_⟩
      cases hr
  | ok record =>
      obtain rfl := eq_some_of_writable hwritable
      refine .done ⟨⟨_, rfl, hmore⟩, fun r hr => .inl ⟨caller.tenantId, webhookId, ?_⟩⟩
      obtain rfl := Except.ok.inj hr
      exact List.mem_append_right _ (List.mem_singleton.mpr rfl)

/-- The row is among those that the task has written. -/
def HasWritten (n : Nat) (record : WebhookRecord) (events : List WebhookEvent) : Prop :=
  .performed n (.updateWebhook record) record ∈ events

variable {record : WebhookRecord}

theorem HasWritten.append (h : HasWritten n record events) (more : List WebhookEvent) :
    HasWritten n record (events ++ more) :=
  List.mem_append_left more h

theorem updated_of_env {w w' : WebhookWorld} {reply : WebhookRecord}
    (henv : WebhookWorld.env (.updateWebhook record) w reply w') :
    reply = record ∧ w'.webhooks = w.webhooks.put record := by
  obtain ⟨clock, draw, -, hanswer⟩ := henv
  obtain rfl : w' = _ := congrArg Prod.snd hanswer
  exact ⟨congrArg Prod.fst hanswer, rfl⟩

theorem writeBack_keeps (call : WebhookCall) {existing : WebhookRecord}
    (hstarted : .started n call ∈ own) (hread : ReadBy n existing own)
    (hmakes : call.Makes existing record) (actorUserId action : String) :
    Keeps n
      (fun result events => result = .ok record ∧ (∃ more, events = own ++ more) ∧
        HasWritten n record events)
      (writeBack actorUserId action existing record) own := by
  refine keeps_await trivial fun _ entered _ _ => ?_
  refine .of_await fun trace w stored w' hbacked hown henv => ⟨?_, ?_⟩
  · have hsub : ∀ event ∈ own, event ∈ trace := by
      intro event hevent
      have hmem : event ∈ ownEvents n trace := hown ▸ List.mem_append_left _ hevent
      exact (mem_ownEvents.mp hmem).1
    exact eachAfter_snoc.mpr
      ⟨hbacked, call, existing, hsub _ hstarted, hread.mono hsub, hmakes⟩
  · obtain rfl : record = stored := (updated_of_env henv).1.symm
    refine keeps_await trivial fun _ _ _ _ => keeps_await trivial fun _ _ _ _ => .done ⟨rfl, ?_, ?_⟩
    · rw [List.append_assoc, List.append_assoc, List.append_assoc]
      exact ⟨_, rfl⟩
    · refine HasWritten.append (HasWritten.append ?_ _) _
      exact List.mem_append_right _ (List.mem_singleton.mpr rfl)

/-! ### Update and delete -/

theorem updateWebhook_keeps (caller : Caller) (webhookId : String) (changes : WebhookChanges) :
    Keeps n
      (fun result events => (∀ e, result = .error e → Silent n events) ∧
        ∀ record, result = .ok record → changes.isEmpty = true ∨ HasWritten n record events)
      (updateWebhook isNetwork caller webhookId changes)
      [.started n (.update caller webhookId changes)] := by
  refine (authorizeWrite_keeps caller webhookId _).bind ?_ ?_
  · rintro existing events ⟨⟨more, rfl, hsilent⟩, hread⟩
    replace hread := hread existing rfl
    split
    · exact .raised ⟨fun _ _ => (silent_started _).append hsilent, fun _ => nofun⟩
    · rw [writeChanges]
      split
      · next hempty => exact .done ⟨fun _ => nofun, fun _ _ => .inl hempty⟩
      · refine keeps_await trivial fun _ updatedAt _ _ => ?_
        refine (writeBack_keeps (.update caller webhookId changes) ?_ ?_ ⟨updatedAt, rfl⟩
          _ _).mono ?_
        · exact List.mem_append_left _ (List.mem_append_left _ List.mem_cons_self)
        · exact hread.mono fun _ => List.mem_append_left _
        · rintro result events ⟨rfl, -, hwritten⟩
          refine ⟨fun _ => nofun, fun record hrecord => .inr ?_⟩
          obtain rfl := Except.ok.inj hrecord
          exact hwritten
  · rintro e events ⟨⟨more, rfl, hsilent⟩, -⟩
    exact ⟨fun _ _ => (silent_started _).append hsilent, fun _ => nofun⟩

theorem deleteWebhook_keeps (caller : Caller) (webhookId : String) :
    Keeps n
      (fun result events => (∀ e, result = .error e → Silent n events) ∧
        (result = .ok () → ∃ tenantId id ok,
          .performed n (.softDeleteWebhook tenantId id) ok ∈ events))
      (deleteWebhook caller webhookId) [.started n (.delete caller webhookId)] := by
  refine (authorizeWrite_keeps caller webhookId _).bind ?_ ?_
  · rintro existing events ⟨⟨more, rfl, hsilent⟩, -⟩
    refine keeps_await trivial fun _ _ _ _ => ?_
    refine .of_await fun trace w deleted w' hbacked hown henv => ⟨?_, ?_⟩
    · refine eachAfter_snoc.mpr ⟨hbacked, .delete caller webhookId, ?_, trivial⟩
      have hmem : .started n (.delete caller webhookId) ∈ ownEvents n trace :=
        hown ▸ List.mem_append_left _ (List.mem_append_left _ List.mem_cons_self)
      exact (mem_ownEvents.mp hmem).1
    · refine keeps_await trivial fun _ _ _ _ => keeps_await trivial fun _ _ _ _ => .done ⟨fun _ => nofun, ?_⟩
      refine fun _ => ⟨_, _, deleted, List.mem_append_left _ (List.mem_append_left _ ?_)⟩
      exact List.mem_append_right _ (List.mem_singleton.mpr rfl)
  · rintro e events ⟨⟨more, rfl, hsilent⟩, -⟩
    exact ⟨fun _ _ => (silent_started _).append hsilent, nofun⟩

/-! ### Rotation -/

/-- A task that fails has written nothing, or the vault failed for it after it had written. -/
def FailsAfter (n : Nat) (events : List WebhookEvent) : Prop :=
  Silent n events ∨ ∃ before plaintext message after,
    events = before ++ .performed n (.encrypt plaintext) (.error message) :: after ∧
      ¬ Silent n before

theorem FailsAfter.append {more : List WebhookEvent} (h : FailsAfter n events)
    (hmore : Silent n more) : FailsAfter n (events ++ more) := by
  obtain hsilent | ⟨before, plaintext, message, after, rfl, hwritten⟩ := h
  · exact .inl (hsilent.append hmore)
  · exact .inr ⟨before, plaintext, message, after ++ more, by simp, hwritten⟩

theorem graceSecret_keeps (existing : WebhookRecord) (own : List WebhookEvent) :
    Keeps n (fun result events => (∃ grace, result = .ok grace) ∧ ∃ more, events = own ++ more)
      (graceSecret existing) own := by
  rw [graceSecret]
  split
  · exact .done ⟨⟨_, rfl⟩, [], (List.append_nil own).symm⟩
  · exact keeps_await trivial fun _ _ _ _ => .done ⟨⟨_, rfl⟩, _, rfl⟩

/-- The task has encrypted the new secret and written the row that refers to it. -/
def HasRotated (n : Nat) (result : WebhookRotated) (events : List WebhookEvent) : Prop :=
  HasWritten n result.record events ∧
    .performed n (.encrypt result.secretPlaintext) (.ok result.record.vaultRef) ∈ events

theorem HasRotated.append {result : WebhookRotated} (h : HasRotated n result events)
    (more : List WebhookEvent) :
    HasRotated n result (events ++ more) :=
  ⟨h.1.append more, List.mem_append_left more h.2⟩

/-- What the events say about the rotations of a task. -/
def Rotates (n : Nat) (events : List WebhookEvent) :
    Except WebhookError (List WebhookRotated) → Prop
  | .ok results => ∀ result ∈ results, HasRotated n result events
  | .error _ => FailsAfter n events

theorem rotateLocked_keeps (call : WebhookCall) {existing : WebhookRecord} {now : Int}
    (hstarted : .started n call ∈ own) (hread : ReadBy n existing own)
    (hmakes : ∀ newRef, call.Makes existing (rotated existing newRef now)) (actorUserId : String) :
    Keeps n
      (fun result events => ∃ rotation, result = .ok rotation ∧ (∃ more, events = own ++ more) ∧
        Rotates n events (rotation.map fun r => [r]))
      (rotateLocked actorUserId existing now) own := by
  refine keeps_await trivial fun _ plaintext _ _ => keeps_await trivial fun _ encrypted _ _ => ?_
  cases encrypted with
  | error message =>
      refine .done ⟨_, rfl, ⟨_, List.append_assoc _ _ _⟩, ?_⟩
      by_cases hsilent : Silent n own
      · have htoken : Silent n [.performed n .tokenUrlsafe plaintext] := silent_of_plain trivial
        have hfailed : Silent n [.performed n (.encrypt plaintext) (.error message)] :=
          silent_of_plain trivial
        exact .inl ((hsilent.append htoken).append hfailed)
      · refine .inr ⟨_, plaintext, message, [], rfl, fun hall => hsilent ?_⟩
        exact fun id event hevent => hall id event (List.mem_append_left _ hevent)
  | ok vaultRef =>
      refine (graceSecret_keeps existing _).bind ?_ ?_
      · rintro grace _ ⟨-, more, rfl⟩
        have hsub {event : WebhookEvent} (hevent : event ∈ own) :=
          List.mem_append_left more (List.mem_append_left
            [.performed n (.encrypt plaintext) (.ok vaultRef)]
            (List.mem_append_left [.performed n .tokenUrlsafe plaintext] hevent))
        refine (writeBack_keeps call (hsub hstarted) (hread.mono fun _ => hsub) (hmakes vaultRef)
          _ _).bind ?_ ?_
        · rintro stored _ ⟨hstored, ⟨after, rfl⟩, hwritten⟩
          obtain rfl := Except.ok.inj hstored
          refine .done ⟨_, rfl, ?_, fun result hresult => ?_⟩
          · rw [List.append_assoc, List.append_assoc, List.append_assoc]
            exact ⟨_, rfl⟩
          · obtain rfl := List.mem_singleton.mp hresult
            refine ⟨hwritten, List.mem_append_left _ (List.mem_append_left _ ?_)⟩
            exact List.mem_append_right _ (List.mem_singleton.mpr rfl)
        · rintro e _ ⟨hcontra, -⟩
          cases hcontra
      · rintro e _ ⟨⟨grace, hcontra⟩, -⟩
        cases hcontra

/-- The rows are rotated one after the other: the induction is on the rows that are left. -/
theorem rotateEach_keeps (call : WebhookCall) {now : Int}
    (hmakes : ∀ r newRef, call.Makes r (rotated r newRef now)) (rows : List WebhookRecord)
    (hstarted : .started n call ∈ own) (hread : ∀ r ∈ rows, ReadBy n r own) :
    Keeps n
      (fun result events => ∃ rotations, result = .ok rotations ∧
        (∃ more, events = own ++ more) ∧ Rotates n events rotations)
      (rotateEach now rows) own := by
  induction rows generalizing own with
  | nil =>
      refine .done ⟨_, rfl, ⟨[], (List.append_nil own).symm⟩, ?_⟩
      exact fun result hresult => absurd hresult List.not_mem_nil
  | cons existing rest ih =>
      refine (rotateLocked_keeps call hstarted (hread existing List.mem_cons_self) (hmakes existing)
        "system:rotation_worker").bind ?_ ?_
      · rintro result _ ⟨rotation, hresult, ⟨more, rfl⟩, hrotates⟩
        obtain rfl := Except.ok.inj hresult
        cases result with
        | error error => exact .done ⟨_, rfl, ⟨_, rfl⟩, hrotates⟩
        | ok first =>
            refine (ih (List.mem_append_left _ hstarted) fun r hr => ?_).bind ?_ ?_
            · exact (hread r (List.mem_cons_of_mem _ hr)).mono fun _ => List.mem_append_left _
            · rintro others _ ⟨rotations, hothers, ⟨later, rfl⟩, hrest⟩
              obtain rfl := Except.ok.inj hothers
              refine .done ⟨_, rfl, ⟨_, List.append_assoc _ _ _⟩, ?_⟩
              cases others with
              | error error => exact hrest
              | ok results =>
                  intro result hresult
                  obtain rfl | hresult := List.mem_cons.mp hresult
                  · exact (hrotates result (List.mem_singleton.mpr rfl)).append _
                  · exact hrest result hresult
            · rintro e _ ⟨_, hcontra, -⟩
              cases hcontra
      · rintro e _ ⟨_, hcontra, -⟩
        cases hcontra

theorem rotateWebhook_keeps (caller : Caller) (webhookId : String) :
    Keeps n (fun result events => Rotates n events (result.map fun r => [r]))
      (rotateWebhook caller webhookId) [.started n (.rotate caller webhookId)] := by
  refine (authorizeWrite_keeps caller webhookId _).bind ?_ ?_
  · rintro existing _ ⟨⟨more, rfl, hsilent⟩, hread⟩
    change Keeps n _ (ite _ _ _) _
    split
    · exact .raised (.inl ((silent_started _).append hsilent))
    · refine keeps_await trivial fun _ now _ _ => ?_
      refine (rotateLocked_keeps (.rotate caller webhookId) ?_ ?_ ?_ _).bind ?_ ?_
      · exact List.mem_append_left _ (List.mem_append_left _ List.mem_cons_self)
      · exact (hread existing rfl).mono fun _ => List.mem_append_left _
      · exact fun newRef => ⟨newRef, now, rfl⟩
      · rintro result events ⟨rotation, hresult, -, hrotates⟩
        obtain rfl := Except.ok.inj hresult
        cases result with
        | error error => exact .raised hrotates
        | ok rotation => exact .done hrotates
      · rintro e _ ⟨_, hcontra, -⟩
        cases hcontra
  · rintro e _ ⟨⟨more, rfl, hsilent⟩, -⟩
    exact .inl ((silent_started _).append hsilent)

theorem rotateDue_keeps (now limit : Int) :
    Keeps n (fun result events => Rotates n events result) (rotateDue now limit)
      [.started n (.rotateDue now limit)] := by
  refine keeps_await trivial fun _ entered _ _ => keeps_await trivial fun _ claimed _ _ => ?_
  have hsilent : Silent n ([Event.started n (WebhookCall.rotateDue now limit)] ++
      [Event.performed n WebhookOp.enterTransaction entered] ++
        [Event.performed n (WebhookOp.claimDueForRotation now limit) claimed]) := by
    refine ((silent_started _).append ?_).append ?_
    · exact silent_of_plain trivial
    · exact silent_of_plain trivial
  cases claimed with
  | error message =>
      refine keeps_await trivial fun _ _ _ _ => .raised (.inl ?_)
      exact hsilent.append (silent_of_plain trivial)
  | ok due =>
      refine (rotateEach_keeps (.rotateDue now limit) ?_ due ?_ ?_).bind ?_ ?_
      · exact fun r newRef => ⟨newRef, rfl⟩
      · exact List.mem_append_left _ (List.mem_append_left _ List.mem_cons_self)
      · refine fun r hr => .inr ⟨now, limit, due, ?_, hr⟩
        exact List.mem_append_right _ (List.mem_singleton.mpr rfl)
      · rintro rotations _ ⟨_, hresult, ⟨more, rfl⟩, hrotates⟩
        obtain rfl := Except.ok.inj hresult
        refine keeps_await trivial fun _ _ _ _ => ?_
        cases rotations with
        | error error => exact .raised (hrotates.append (silent_of_plain trivial))
        | ok results => exact .done fun result hresult => (hrotates result hresult).append _
      · rintro e _ ⟨_, hcontra, -⟩
        cases hcontra

/-! ### Whole calls -/

/-- What the events of a call say about its result. -/
def Confirmed (n : Nat) (result : Except WebhookError WebhookResult)
    (events : List WebhookEvent) : Prop :=
  match result with
  | .ok (.updated record) => HasWritten n record events ∨ ∃ caller webhookId changes,
      .started n (.update caller webhookId changes) ∈ events ∧ changes.isEmpty = true
  | .ok (.rotated results) => ∀ result ∈ results, HasRotated n result events
  | .ok .deleted => ∃ tenantId id ok, .performed n (.softDeleteWebhook tenantId id) ok ∈ events
  | .error _ => FailsAfter n events

theorem body_keeps (call : WebhookCall) :
    Keeps n (Confirmed n) (call.body isNetwork) [.started n call] := by
  cases call with
  | update caller webhookId changes =>
      refine (updateWebhook_keeps caller webhookId changes).and_extends.bind ?_ ?_
      · rintro record events ⟨⟨-, hwritten⟩, hown⟩
        refine .done ?_
        obtain hempty | hwritten := hwritten record rfl
        · refine .inr ⟨caller, webhookId, changes, hown.subset List.mem_cons_self, hempty⟩
        · exact .inl hwritten
      · rintro e events ⟨⟨hsilent, -⟩, -⟩
        exact .inl (hsilent e rfl)
  | rotate caller webhookId =>
      refine (rotateWebhook_keeps caller webhookId).bind ?_ ?_
      · exact fun result events hrotates => .done hrotates
      · exact fun e events hrotates => hrotates
  | rotateDue now limit =>
      refine (rotateDue_keeps now limit).bind ?_ ?_
      · exact fun result events hrotates => .done hrotates
      · exact fun e events hrotates => hrotates
  | delete caller webhookId =>
      refine (deleteWebhook_keeps caller webhookId).bind ?_ ?_
      · exact fun _ events hdeleted => .done (hdeleted.2 rfl)
      · exact fun e events hdeleted => .inl (hdeleted.1 e rfl)

theorem webhooksVerified (w₀ : WebhookWorld) :
    Verified (WebhookCall.body isNetwork) WebhookWorld.env (fun trace _ => EachAfter Backed trace)
      Confirmed w₀ where
  init := eachAfter_nil
  started _ _ _ _ h _ := eachAfter_snoc.mpr ⟨h, trivial⟩
  body_safe _ call := body_keeps call
  stopped _ _ _ h := eachAfter_snoc.mpr ⟨h, trivial⟩

end CopilotRuntime.Webhooks
