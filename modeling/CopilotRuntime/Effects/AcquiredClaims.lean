import CopilotRuntime.Effects.Claims

/-!
# Acquired claims

A claim that was acquired stays under its key. Later calls move it along its states only, and
hand it out again to whoever claims the key.
-/

namespace CopilotRuntime.Effects

/-- What may become of a claim. -/
structure EffectClaim.Continues (c c' : EffectClaim) : Prop where
  request : c.sameRequestAs c' = true
  claimId : c'.claimId = c.claimId
  createdAt : c'.createdAt = c.createdAt
  final : c.state = .completed ∨ c.state = .cancelled → c' = c
  indeterminate : c.state = .indeterminate → c' = c ∨ c'.state = .completed

namespace EffectClaim

theorem Continues.refl (c : EffectClaim) : c.Continues c where
  request := by simp [sameRequestAs]
  claimId := rfl
  createdAt := rfl
  final _ := rfl
  indeterminate _ := .inl rfl

theorem Continues.trans {a b c : EffectClaim} (h : a.Continues b) (h' : b.Continues c) :
    a.Continues c where
  request := by
    have hfirst := h.request
    have hsecond := h'.request
    simp only [sameRequestAs, Bool.and_eq_true, beq_iff_eq] at *
    simp_all
  claimId := h'.claimId.trans h.claimId
  createdAt := h'.createdAt.trans h.createdAt
  final hfinal := by
    obtain rfl := h.final hfinal
    exact h'.final hfinal
  indeterminate hstate := by
    rcases h.indeterminate hstate with rfl | hcompleted
    · exact h'.indeterminate hstate
    · exact .inr (h'.final (.inl hcompleted) ▸ hcompleted)

theorem continues_of_transition {previous replacement : EffectClaim}
    (h : validateClaimTransition previous replacement = .ok ()) :
    previous.Continues replacement := by
  unfold validateClaimTransition at h
  split at h
  · cases h
  · next hidentity =>
      simp only [Bool.or_eq_true, bne_iff_ne, ne_eq, Bool.not_eq_true', not_or, not_not,
        Bool.not_eq_false] at hidentity
      obtain ⟨⟨⟨_, hid⟩, hsame⟩, hcreated⟩ := hidentity
      refine ⟨hsame, hid.symm, hcreated.symm, fun hfinal => ?_, fun hstate => ?_⟩
      · by_contra hne
        rcases hfinal with hfinal | hfinal <;> simp [hfinal, hne] at h
      · by_contra hnot
        obtain ⟨hne, hcompleted⟩ := not_or.mp hnot
        cases hnext : replacement.state <;> simp_all [allowedStates]

end EffectClaim

namespace InMemoryEffectClaimStore

inductive ClaimCall
  | claim (c : EffectClaim)
  | update (c : EffectClaim)

def serve (s : InMemoryEffectClaimStore) : ClaimCall → InMemoryEffectClaimStore
  | .claim c => (s.claim c).2
  | .update c => (s.update c).2

variable {s : InMemoryEffectClaimStore} {k : ClaimKey} {c : EffectClaim}

theorem continues_serve (h : s.get k = some c) (call : ClaimCall) :
    ∃ c', (s.serve call).get k = some c' ∧ c.Continues c' := by
  cases call with
  | claim d =>
      rcases claim_cases s d with ⟨hfree, heq⟩ | ⟨_, _, _, heq⟩ | ⟨e, heq⟩ <;>
        rw [serve, heq]
      · refine ⟨c, ?_, .refl c⟩
        rw [get_put, if_neg, h]
        rintro rfl
        cases hfree.symm.trans h
      · exact ⟨c, h, .refl c⟩
      · exact ⟨c, h, .refl c⟩
  | update d =>
      rcases update_cases s d with ⟨previous, hprevious, _, hstep, heq⟩ | ⟨e, heq⟩ <;>
        rw [serve, heq]
      · rw [get_put]
        split
        · next hkey =>
            subst hkey
            obtain rfl := Option.some.inj (hprevious.symm.trans h)
            exact ⟨d, rfl, EffectClaim.continues_of_transition hstep⟩
        · exact ⟨c, h, .refl c⟩
      · exact ⟨c, h, .refl c⟩

theorem continues_foldl (h : s.get k = some c) (calls : List ClaimCall) :
    ∃ c', (calls.foldl serve s).get k = some c' ∧ c.Continues c' := by
  induction calls generalizing s c with
  | nil => exact ⟨c, h, .refl c⟩
  | cons call rest ih =>
      obtain ⟨next, hnext, hcontinues⟩ := continues_serve h call
      obtain ⟨c', hget, hlater⟩ := ih hnext
      exact ⟨c', hget, hcontinues.trans hlater⟩

/-- Every later run keeps the claim, and hands it out again. -/
def Keeps (s : InMemoryEffectClaimStore) (k : ClaimKey) (c : EffectClaim) : Prop :=
  ∀ calls : List ClaimCall, ∃ c', (calls.foldl serve s).get k = some c' ∧ c.Continues c' ∧
    ∀ request again, request.key = k →
      ((calls.foldl serve s).claim request).1 = .ok again → again = ⟨false, c'⟩

theorem keeps_of_get (h : s.get k = some c) : s.Keeps k c := by
  intro calls
  obtain ⟨c', hget, hcontinues⟩ := continues_foldl h calls
  refine ⟨c', hget, hcontinues, fun request again hkey hagain => ?_⟩
  rcases claim_cases (calls.foldl serve s) request with
    ⟨hfree, _⟩ | ⟨existing, hfound, _, heq⟩ | ⟨e, heq⟩
  · rw [hkey, hget] at hfree
    cases hfree
  · rw [heq] at hagain
    rw [hkey, hget] at hfound
    cases hagain
    cases hfound
    rfl
  · rw [heq] at hagain
    cases hagain

/-- Acquiring a claim fails and changes nothing, or the store keeps the acquired claim. -/
theorem acquired_claim_kept (s : InMemoryEffectClaimStore) (c : EffectClaim) :
    (∃ e, s.claim c = (.error e, s)) ∨
      ∃ acquired s', s.claim c = (.ok acquired, s') ∧ acquired.claim.sameRequestAs c = true ∧
        s'.Keeps c.key acquired.claim := by
  rcases claim_cases s c with ⟨_, heq⟩ | ⟨existing, hfound, hsame, heq⟩ | ⟨e, heq⟩
  · exact .inr ⟨_, _, heq, (EffectClaim.Continues.refl c).request, keeps_of_get (by simp [get_put])⟩
  · exact .inr ⟨_, _, heq, hsame, keeps_of_get hfound⟩
  · exact .inl ⟨e, heq⟩

end InMemoryEffectClaimStore

end CopilotRuntime.Effects
