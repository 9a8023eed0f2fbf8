import Mathlib.Data.List.Basic
import Mathlib.Order.WellFoundedSet

/-!
# Layers of a dependency list

Items wait for names. The first layer holds the items whose names are settled
already, each later layer those whose names the layers before it settle; items
that are left when no item is ready are stuck. Without a cycle no item is stuck.
-/

namespace CopilotRuntime.Foundation

section Layers
variable {α κ : Type} [DecidableEq κ] (name : α → κ) (needs : α → List κ)
  (arrange : List α → List α)

/-- The item waits for settled names only. -/
def ready (settled : List κ) (item : α) : Bool := (needs item).all fun key => key ∈ settled

theorem ready_eq_true_iff {settled : List κ} {item : α} :
    ready needs settled item = true ↔ ∀ key ∈ needs item, key ∈ settled := by
  simp [ready]

/-- The layers of the pending items, or the items that are stuck. -/
def layering : Nat → List κ → List α → Except (List α) (List (List α))
  | 0, _, _ => .ok []
  | fuel + 1, settled, pending =>
      if pending.isEmpty then .ok []
      else
        let layer := arrange (pending.filter (ready needs settled))
        if layer.isEmpty then .error pending
        else
          (layering fuel (settled ++ layer.map name)
            (pending.filter fun item => !ready needs settled item)).map (layer :: ·)

variable {name needs arrange} {fuel : Nat} {settled : List κ} {pending : List α}
  {layers : List (List α)}

/-- A layering that succeeds is empty or one layer on top of the layering of the rest. -/
theorem layering_succ_eq_ok (h : layering name needs arrange (fuel + 1) settled pending = .ok layers) :
    (pending = [] ∧ layers = []) ∨
      ∃ layer rest, layer = arrange (pending.filter (ready needs settled)) ∧ layer ≠ [] ∧
        layering name needs arrange fuel (settled ++ layer.map name)
          (pending.filter fun item => !ready needs settled item) = .ok rest ∧
        layers = layer :: rest := by
  rw [layering] at h
  split at h
  · rename_i hempty
    cases h
    exact .inl ⟨List.isEmpty_iff.mp hempty, rfl⟩
  · dsimp only at h
    split at h
    · cases h
    · rename_i hlayer
      cases hrest : layering name needs arrange fuel
          (settled ++ (arrange (pending.filter (ready needs settled))).map name)
          (pending.filter fun item => !ready needs settled item) with
      | error left => rw [hrest] at h; cases h
      | ok rest =>
          rw [hrest] at h
          cases h
          exact .inr ⟨_, rest, rfl, fun hnil => hlayer (List.isEmpty_iff.mpr hnil), hrest, rfl⟩

section Arranged
variable (harrange : ∀ items, (arrange items).Perm items)
include harrange

/-- The layers hold the pending items, each once. -/
theorem layering_perm (hfuel : pending.length ≤ fuel)
    (h : layering name needs arrange fuel settled pending = .ok layers) :
    layers.flatten.Perm pending := by
  induction fuel generalizing settled pending layers with
  | zero =>
      obtain rfl := List.eq_nil_of_length_eq_zero (Nat.le_zero.mp hfuel)
      cases h
      exact .nil
  | succ fuel ih =>
      obtain ⟨rfl, rfl⟩ | ⟨layer, rest, rfl, hne, hrest, rfl⟩ := layering_succ_eq_ok h
      · exact .nil
      · have hlayer := harrange (pending.filter (ready needs settled))
        -- a layer is not empty, so fewer items are left than there is fuel
        have hsplit := List.filter_append_perm (ready needs settled) pending
        have hshort : (pending.filter fun item => !ready needs settled item).length ≤ fuel := by
          have hpos := List.length_pos_of_ne_nil hne
          have hlength := hsplit.length_eq
          rw [List.length_append, ← hlayer.length_eq] at hlength
          omega
        have hboth := (hlayer.append (ih hshort hrest)).trans hsplit
        rwa [List.flatten_cons]

/-- An item's names are settled before its layer. -/
theorem layering_settled (h : layering name needs arrange fuel settled pending = .ok layers)
    {before after : List (List α)} {layer : List α} (hsplit : layers = before ++ layer :: after)
    {item : α} (hitem : item ∈ layer) {key : κ} (hkey : key ∈ needs item) :
    key ∈ settled ∨ key ∈ before.flatten.map name := by
  induction fuel generalizing settled pending layers before with
  | zero =>
      cases h
      simp at hsplit
  | succ fuel ih =>
      obtain ⟨rfl, rfl⟩ | ⟨first, rest, hfirst, -, hrest, rfl⟩ := layering_succ_eq_ok h
      · simp at hsplit
      · cases before with
        | nil =>
            obtain ⟨rfl, rfl⟩ := List.cons.inj hsplit
            have hmem : item ∈ pending.filter (ready needs settled) :=
              (harrange _).subset (hfirst ▸ hitem)
            exact .inl ((ready_eq_true_iff needs).mp (List.mem_filter.mp hmem).2 key hkey)
        | cons first' before =>
            obtain ⟨rfl, rfl⟩ := List.cons.inj hsplit
            rcases ih hrest rfl with hearlier | hlater
            · rcases List.mem_append.mp hearlier with hset | hin
              · exact .inl hset
              · exact .inr (by simp only [List.flatten_cons, List.map_append, List.mem_append, hin,
                  true_or])
            · exact .inr (by simp only [List.flatten_cons, List.map_append, List.mem_append, hlater,
                or_true])

end Arranged

/-- No layer is empty. -/
theorem layering_ne_nil (h : layering name needs arrange fuel settled pending = .ok layers)
    {layer : List α} (hlayer : layer ∈ layers) : layer ≠ [] := by
  induction fuel generalizing settled pending layers with
  | zero =>
      cases h
      cases hlayer
  | succ fuel ih =>
      obtain ⟨rfl, rfl⟩ | ⟨first, rest, -, hne, hrest, rfl⟩ := layering_succ_eq_ok h
      · cases hlayer
      · rcases List.mem_cons.mp hlayer with rfl | hlater
        · exact hne
        · exact ih hrest hlater

/-! ### Without a cycle -/

variable (name needs) in
/-- An item of the first name needs the second one. -/
def WaitsFor (items : List α) (key key' : κ) : Prop :=
  ∃ item ∈ items, name item = key ∧ key' ∈ needs item

section Acyclic
variable {items : List α}
  (hacyclic : ∀ key, ¬ Relation.TransGen (WaitsFor name needs items) key key)
include hacyclic

/-- Of some pending items, one waits for settled names only. -/
theorem exists_ready (hpending : pending ⊆ items) (hne : pending ≠ [])
    (hclosed : ∀ item ∈ pending, ∀ key ∈ needs item, key ∈ settled ∨ key ∈ pending.map name) :
    ∃ item ∈ pending, ready needs settled item = true := by
  have horder : IsStrictOrder κ fun key key' =>
      Relation.TransGen (WaitsFor name needs items) key' key :=
    { irrefl := hacyclic
      trans := fun _ _ _ hfirst hsecond => hsecond.trans hfirst }
  -- the names are finitely many, so one of them waits for none of the others
  have hfounded := Set.wellFoundedOn_iff.mp
    ((pending.map name).finite_toSet.wellFoundedOn (r := fun key key' =>
      Relation.TransGen (WaitsFor name needs items) key' key))
  obtain ⟨first, hfirst⟩ := List.exists_mem_of_ne_nil pending hne
  obtain ⟨key, hkey, hleast⟩ := hfounded.has_min {key | key ∈ pending.map name}
    ⟨name first, List.mem_map_of_mem hfirst⟩
  obtain ⟨item, hitem, rfl⟩ := List.mem_map.mp hkey
  refine ⟨item, hitem, (ready_eq_true_iff needs).mpr fun key' hkey' => ?_⟩
  refine (hclosed item hitem key' hkey').resolve_right fun hpend => ?_
  exact hleast key' hpend ⟨.single ⟨item, hpending hitem, rfl, hkey'⟩, hpend, hkey⟩

/-- Items without a cycle are all put into layers. -/
theorem exists_layering (harrange : ∀ items, (arrange items).Perm items) (fuel : Nat)
    (hpending : pending ⊆ items)
    (hclosed : ∀ item ∈ pending, ∀ key ∈ needs item, key ∈ settled ∨ key ∈ pending.map name) :
    ∃ layers, layering name needs arrange fuel settled pending = .ok layers := by
  induction fuel generalizing settled pending with
  | zero => exact ⟨[], rfl⟩
  | succ fuel ih =>
      rw [layering]
      split
      · exact ⟨[], rfl⟩
      · next hne =>
          obtain ⟨item, hitem, hready⟩ := exists_ready hacyclic hpending
            (mt List.isEmpty_iff.mpr hne) hclosed
          have hmem {other : α} : other ∈ arrange (pending.filter (ready needs settled)) ↔
              other ∈ pending ∧ ready needs settled other = true :=
            (harrange _).mem_iff.trans List.mem_filter
          have hlayer := List.ne_nil_of_mem (hmem.mpr ⟨hitem, hready⟩)
          have hleft : ∀ other ∈ pending.filter fun other => !ready needs settled other,
              ∀ key ∈ needs other,
                key ∈ settled ++ (arrange (pending.filter (ready needs settled))).map name ∨
                  key ∈ (pending.filter fun other => !ready needs settled other).map name := by
            intro other hother key hkey
            obtain hset | hpend := hclosed other (List.mem_filter.mp hother).1 key hkey
            · exact .inl (List.mem_append_left _ hset)
            · obtain ⟨needed, hneeded, rfl⟩ := List.mem_map.mp hpend
              cases hcase : ready needs settled needed with
              | true =>
                  exact .inl (List.mem_append_right _
                    (List.mem_map_of_mem (hmem.mpr ⟨hneeded, hcase⟩)))
              | false =>
                  refine .inr (List.mem_map_of_mem (List.mem_filter.mpr ⟨hneeded, ?_⟩))
                  rw [hcase]
                  rfl
          obtain ⟨rest, hrest⟩ := ih
            (fun other hother => hpending (List.mem_filter.mp hother).1) hleft
          dsimp only
          rw [if_neg (mt List.isEmpty_iff.mp hlayer), hrest]
          exact ⟨_, rfl⟩

end Acyclic

end Layers

end CopilotRuntime.Foundation
