import CopilotRuntime.Webhooks.Service

/-!
# Fields of a webhook and the calls that mean to set them

A call means to set some fields of a row and writes the whole row. What it writes
is a row it has read, with the fields it means to set changed.
-/

namespace CopilotRuntime.Webhooks

open Foundation

abbrev WebhookEvent := Event WebhookOp WebhookOp.Reply WebhookCall

abbrev WebhookPool := Pool WebhookOp WebhookOp.Reply WebhookError WebhookResult WebhookWorld

/-- Fields of a webhook that calls set. -/
inductive WebhookField
  | url | ipAllowlist | status | vaultRef | previousVaultRef | previousExpiresAt | rotatesAt
  | deletedAt
  deriving DecidableEq

/-- Two rows have the same value in the field. -/
def WebhookField.Same (r r' : WebhookRecord) : WebhookField → Prop
  | url => r.url = r'.url
  | ipAllowlist => r.ipAllowlist = r'.ipAllowlist
  | status => r.status = r'.status
  | vaultRef => r.vaultRef = r'.vaultRef
  | previousVaultRef => r.previousVaultRef = r'.previousVaultRef
  | previousExpiresAt => r.previousExpiresAt = r'.previousExpiresAt
  | rotatesAt => r.rotatesAt = r'.rotatesAt
  | deletedAt => r.deletedAt = r'.deletedAt

theorem WebhookField.Same.refl (f : WebhookField) (r : WebhookRecord) : f.Same r r := by
  cases f with
  | _ => rfl

theorem WebhookField.Same.trans {f : WebhookField} {r r' r'' : WebhookRecord} (h : f.Same r r')
    (h' : f.Same r' r'') : f.Same r r'' := by
  cases f with
  | _ => exact Eq.trans h h'

theorem WebhookField.Same.symm {f : WebhookField} {r r' : WebhookRecord} (h : f.Same r r') :
    f.Same r' r := by
  cases f with
  | _ => exact Eq.symm h

/-- The fields that a call means to set. -/
def WebhookCall.Means : WebhookCall → WebhookField → Prop
  | .update _ _ changes, .url => changes.url.isSome = true
  | .update _ _ changes, .ipAllowlist => changes.ipAllowlist.isSome = true
  | .update _ _ changes, .status => changes.status.isSome = true
  | .rotate _ _, .vaultRef | .rotate _ _, .previousVaultRef | .rotate _ _, .previousExpiresAt
  | .rotate _ _, .rotatesAt => True
  | .rotateDue _ _, .vaultRef | .rotateDue _ _, .previousVaultRef
  | .rotateDue _ _, .previousExpiresAt | .rotateDue _ _, .rotatesAt => True
  | .delete _ _, .deletedAt => True
  | _, _ => False

/-- What a call makes of a row it has read; a new secret is referred to by its vault reference. -/
def WebhookCall.Makes (call : WebhookCall) (r record : WebhookRecord) : Prop :=
  match call with
  | .update _ _ changes => ∃ updatedAt, record = changes.apply updatedAt r
  | .rotate _ _ => ∃ newRef now, record = rotated r newRef now
  | .rotateDue now _ => ∃ newRef, record = rotated r newRef now
  | .delete _ _ => False

theorem WebhookCall.Makes.id {call : WebhookCall} {r record : WebhookRecord}
    (h : call.Makes r record) : record.id = r.id := by
  cases call with
  | update caller webhookId changes =>
      obtain ⟨updatedAt, rfl⟩ := h
      rfl
  | rotate caller webhookId =>
      obtain ⟨newRef, now, rfl⟩ := h
      rfl
  | rotateDue now limit =>
      obtain ⟨newRef, rfl⟩ := h
      rfl
  | delete caller webhookId => exact h.elim

theorem rotated_same {r : WebhookRecord} {newRef : String} {now : Int} {f : WebhookField}
    (hvault : f ≠ .vaultRef) (hprevious : f ≠ .previousVaultRef)
    (hexpires : f ≠ .previousExpiresAt) (hrotates : f ≠ .rotatesAt) :
    f.Same (rotated r newRef now) r := by
  cases f with
  | vaultRef => exact absurd rfl hvault
  | previousVaultRef => exact absurd rfl hprevious
  | previousExpiresAt => exact absurd rfl hexpires
  | rotatesAt => exact absurd rfl hrotates
  | _ => rfl

/-- A field that a call does not mean to set keeps the value that the call read. -/
theorem WebhookCall.Makes.same {call : WebhookCall} {r record : WebhookRecord}
    (h : call.Makes r record) {f : WebhookField} (hf : ¬ call.Means f) : f.Same record r := by
  cases call with
  | update caller webhookId changes =>
      obtain ⟨updatedAt, rfl⟩ := h
      cases f with
      | url =>
          change changes.url.getD r.url = r.url
          rw [Option.not_isSome_iff_eq_none.mp hf, Option.getD_none]
      | ipAllowlist =>
          change changes.ipAllowlist.getD r.ipAllowlist = r.ipAllowlist
          rw [Option.not_isSome_iff_eq_none.mp hf, Option.getD_none]
      | status =>
          change changes.status.getD r.status = r.status
          rw [Option.not_isSome_iff_eq_none.mp hf, Option.getD_none]
      | _ => rfl
  | rotate caller webhookId =>
      obtain ⟨newRef, now, rfl⟩ := h
      apply rotated_same
      all_goals
        rintro rfl
        exact hf trivial
  | rotateDue now limit =>
      obtain ⟨newRef, rfl⟩ := h
      apply rotated_same
      all_goals
        rintro rfl
        exact hf trivial
  | delete caller webhookId => exact h.elim

/-! ### Events -/

/-- The task reads the row, by its id or as one that is due. -/
def ReadBy (n : Nat) (r : WebhookRecord) (trace : List WebhookEvent) : Prop :=
  (∃ tenantId webhookId, .performed n (.getWebhook tenantId webhookId) (some r) ∈ trace) ∨
    ∃ now limit rows, .performed n (.claimDueForRotation now limit) (.ok rows) ∈ trace ∧ r ∈ rows

/-- The task writes the webhook's row. -/
inductive Writes (n : Nat) (id : String) : WebhookEvent → Prop
  | update {record : WebhookRecord} {reply : WebhookRecord} (hid : record.id = id) :
      Writes n id (.performed n (.updateWebhook record) reply)
  | delete {tenantId : String} : Writes n id (.performed n (.softDeleteWebhook tenantId id) true)

/-- The event is a write of the webhook's row by a call that means to set the field. -/
def Sets (trace : List WebhookEvent) (id : String) (f : WebhookField) (event : WebhookEvent) :
    Prop :=
  ∃ n call, Writes n id event ∧ .started n call ∈ trace ∧ call.Means f

theorem ReadBy.mono {n : Nat} {r : WebhookRecord} {trace trace' : List WebhookEvent}
    (h : ReadBy n r trace) (hsub : ∀ event ∈ trace, event ∈ trace') : ReadBy n r trace' := by
  obtain ⟨tenantId, webhookId, hread⟩ | ⟨now, limit, rows, hread, hmem⟩ := h
  · exact .inl ⟨tenantId, webhookId, hsub _ hread⟩
  · exact .inr ⟨now, limit, rows, hsub _ hread, hmem⟩

/-- Since a call read a row, the fields it does not mean to set have kept the values that it read
when it writes the row back, and the vault does not fail for a call that has already written. -/
def Fresh (trace : List WebhookEvent) (w : WebhookWorld) : WebhookEvent → Prop
  | .performed n (.updateWebhook record) _ => ∀ call r stored f,
      .started n call ∈ trace → ReadBy n r trace → r.id = record.id →
        w.webhooks.find? r.id = some stored → ¬ call.Means f → f.Same stored r
  | .performed n (.encrypt _) (.error _) => ∀ id, ∀ event ∈ trace, ¬ Writes n id event
  | _ => True

end CopilotRuntime.Webhooks
