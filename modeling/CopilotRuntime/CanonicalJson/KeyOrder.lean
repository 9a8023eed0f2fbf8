import CopilotRuntime.CanonicalJson.Encoder
import Mathlib.Data.List.Perm.Basic

/-!
# Values up to the order of their fields

Two values have the same canonical text exactly when they differ in the order of
fields only.
-/

namespace CopilotRuntime.CanonicalJson

open Foundation

mutual

/-- The values differ in the order of the fields of their objects only. -/
def SameUpToKeyOrder : Json → Json → Prop
  | .arr items, .arr items' => SameItems items items'
  | .obj fields, .obj fields' => ∃ order, order.Perm fields' ∧ SameFields fields order
  | v, w => v = w

def SameItems : List Json → List Json → Prop
  | [], [] => True
  | item :: rest, item' :: rest' => SameUpToKeyOrder item item' ∧ SameItems rest rest'
  | _, _ => False

def SameFields : List (String × Json) → List (String × Json) → Prop
  | [], [] => True
  | (key, value) :: rest, (key', value') :: rest' =>
      key = key' ∧ SameUpToKeyOrder value value' ∧ SameFields rest rest'
  | _, _ => False

end

theorem sameItems_iff {items items' : List Json} :
    SameItems items items' ↔ List.Forall₂ SameUpToKeyOrder items items' := by
  induction items generalizing items' with
  | nil => cases items' <;> simp [SameItems]
  | cons item rest ih => cases items' <;> simp [SameItems, ih]

theorem sameFields_iff {fields fields' : List (String × Json)} :
    SameFields fields fields' ↔
      List.Forall₂ (fun a b => a.1 = b.1 ∧ SameUpToKeyOrder a.2 b.2) fields fields' := by
  induction fields generalizing fields' with
  | nil => cases fields' <;> simp [SameFields]
  | cons field rest ih => cases fields' <;> simp [SameFields, ih, and_assoc]

section Sorting
variable {α : Type}

theorem pairwise_sortKeys (fields : List (String × α)) :
    (sortKeys fields).Pairwise fun a b => a.1 ≤ b.1 := by
  have : Std.Total fun a b : String × α => a.1 ≤ b.1 := ⟨fun a b => le_total a.1 b.1⟩
  have : IsTrans (String × α) fun a b => a.1 ≤ b.1 := ⟨fun _ _ _ => le_trans⟩
  exact List.pairwise_insertionSort _ fields

/-- Fields with distinct names have one order. -/
theorem sortKeys_eq_of_perm {fields fields' : List (String × α)} (h : fields.Perm fields')
    (hnodup : (fields.map Prod.fst).Nodup) : sortKeys fields = sortKeys fields' := by
  have hperm : (sortKeys fields).Perm (sortKeys fields') :=
    (perm_sortKeys fields).trans (h.trans (perm_sortKeys fields').symm)
  have hdistinct := List.inj_on_of_nodup_map hnodup
  refine List.Perm.eq_of_pairwise (fun a b ha hb hab hba => ?_) (pairwise_sortKeys fields)
    (pairwise_sortKeys fields') hperm
  have ha' : a ∈ fields := (perm_sortKeys fields).mem_iff.mp ha
  have hb' : b ∈ fields := h.mem_iff.mpr ((perm_sortKeys fields').mem_iff.mp hb)
  exact hdistinct ha' hb' (le_antisymm hab hba)

theorem sortKeys_sortKeys {fields : List (String × α)} (h : (fields.map Prod.fst).Nodup) :
    sortKeys (sortKeys fields) = sortKeys fields :=
  (sortKeys_eq_of_perm (perm_sortKeys fields).symm h).symm

end Sorting

/-! ### Values in key order -/

section Lists
variable {α β : Type}

theorem forall₂_imp_mem {R S : α → β → Prop} {xs : List α} {ys : List β}
    (h : List.Forall₂ R xs ys) (himp : ∀ x ∈ xs, ∀ y, R x y → S x y) : List.Forall₂ S xs ys := by
  induction h with
  | nil => exact .nil
  | cons hfirst _ ih =>
      obtain ⟨hx, hrest⟩ := List.forall_mem_cons.mp himp
      exact .cons (hx _ hfirst) (ih hrest)

end Lists

theorem inKeyOrder_arr (items : List Json) :
    inKeyOrder (.arr items) = .arr (items.map inKeyOrder) := by
  rw [inKeyOrder, inKeyOrderItems_eq_map]

theorem inKeyOrder_obj (fields : List (String × Json)) :
    inKeyOrder (.obj fields) = .obj (sortKeys (fields.map orderField)) := by
  rw [inKeyOrder, inKeyOrderFields_eq_map]

theorem map_fst_orderField (fields : List (String × Json)) :
    (fields.map orderField).map Prod.fst = fields.map Prod.fst := by
  rw [List.map_map]
  rfl

/-- Values that are the same up to key order are equal in key order. -/
theorem inKeyOrder_eq_of_same {v w : Json} (hv : v.KeysDistinct)
    (h : SameUpToKeyOrder v w) : inKeyOrder v = inKeyOrder w := by
  induction v using Json.values generalizing w with
  | null => exact congrArg inKeyOrder h
  | bool b => exact congrArg inKeyOrder h
  | int n => exact congrArg inKeyOrder h
  | str s => exact congrArg inKeyOrder h
  | arr items ih =>
      cases w with
      | arr items' =>
          have hdistinct := Json.itemsDistinct_iff.mp hv
          have hitems : items.map inKeyOrder = items'.map inKeyOrder :=
            map_eq_map_iff_forall₂.mpr (forall₂_imp_mem (sameItems_iff.mp h)
              fun item hmem item' hsame => ih item hmem (hdistinct item hmem) hsame)
          rw [inKeyOrder_arr, inKeyOrder_arr, hitems]
      | null => cases h
      | bool b => cases h
      | int n => cases h
      | str s => cases h
      | obj fields => cases h
  | obj fields ih =>
      cases w with
      | obj fields' =>
          obtain ⟨order, hperm, hsame⟩ := h
          have hdistinct := Json.fieldsDistinct_iff.mp hv.2
          have hfields : fields.map orderField = order.map orderField :=
            map_eq_map_iff_forall₂.mpr (forall₂_imp_mem (sameFields_iff.mp hsame)
              fun field hmem field' hsame =>
                Prod.ext hsame.1 (ih field hmem (hdistinct field hmem) hsame.2))
          have hnodup : ((fields.map orderField).map Prod.fst).Nodup := by
            rw [map_fst_orderField]
            exact hv.1
          rw [inKeyOrder_obj, inKeyOrder_obj,
            sortKeys_eq_of_perm (hfields ▸ hperm.map orderField) hnodup]
      | null => cases h
      | bool b => cases h
      | int n => cases h
      | str s => cases h
      | arr items => cases h

/-- Values that are equal in key order are the same up to key order. -/
theorem same_of_inKeyOrder_eq {v w : Json} (h : inKeyOrder v = inKeyOrder w) :
    SameUpToKeyOrder v w := by
  induction v using Json.values generalizing w with
  | null => cases w <;> first | rfl | cases h
  | bool b => cases w <;> first | exact h | cases h
  | int n => cases w <;> first | exact h | cases h
  | str s => cases w <;> first | exact h | cases h
  | arr items ih =>
      cases w with
      | arr items' =>
          rw [inKeyOrder_arr, inKeyOrder_arr] at h
          have hitems := map_eq_map_iff_forall₂.mp (Json.arr.inj h)
          exact sameItems_iff.mpr (forall₂_imp_mem hitems fun item hmem item' heq =>
            ih item hmem heq)
      | null => cases h
      | bool b => cases h
      | int n => cases h
      | str s => cases h
      | obj fields => cases h
  | obj fields ih =>
      cases w with
      | obj fields' =>
          rw [inKeyOrder_obj, inKeyOrder_obj] at h
          have hperm : (fields.map orderField).Perm (fields'.map orderField) := by
            have hsorted := perm_sortKeys (fields.map orderField)
            rw [Json.obj.inj h] at hsorted
            exact hsorted.symm.trans (perm_sortKeys _)
          have horder : Relation.Comp (fun a b => a = List.map orderField b) List.Perm
              (fields.map orderField) fields' := by
            rw [List.eq_map_comp_perm]
            exact hperm
          obtain ⟨order, hfields, hperm⟩ := horder
          refine ⟨order, hperm, sameFields_iff.mpr ?_⟩
          refine forall₂_imp_mem (map_eq_map_iff_forall₂.mp hfields) fun field hmem field' heq => ?_
          have hkey := congrArg Prod.fst heq
          have hvalue := congrArg Prod.snd heq
          exact ⟨hkey, ih field hmem hvalue⟩
      | null => cases h
      | bool b => cases h
      | int n => cases h
      | str s => cases h
      | arr items => cases h

theorem inKeyOrder_eq_iff {v w : Json} (hv : v.KeysDistinct) :
    inKeyOrder v = inKeyOrder w ↔ SameUpToKeyOrder v w :=
  ⟨same_of_inKeyOrder_eq, inKeyOrder_eq_of_same hv⟩

/-! ### Texts -/

theorem distinct_inKeyOrder {v : Json} (h : v.KeysDistinct) : (inKeyOrder v).KeysDistinct := by
  induction v using Json.values with
  | null => trivial
  | bool b => trivial
  | int n => trivial
  | str s => trivial
  | arr items ih =>
      rw [inKeyOrder_arr]
      refine Json.itemsDistinct_iff.mpr (List.forall_mem_map.mpr fun item hmem => ?_)
      exact ih item hmem (Json.itemsDistinct_iff.mp h item hmem)
  | obj fields ih =>
      rw [inKeyOrder_obj]
      have hperm := perm_sortKeys (fields.map orderField)
      refine ⟨?_, Json.fieldsDistinct_iff.mpr fun field hmem => ?_⟩
      · rw [(hperm.map Prod.fst).nodup_iff, map_fst_orderField]
        exact h.1
      · obtain ⟨old, hold, rfl⟩ := List.mem_map.mp (hperm.mem_iff.mp hmem)
        exact ih old hold (Json.fieldsDistinct_iff.mp h.2 old hold)

theorem inKeyOrder_inKeyOrder {v : Json} (h : v.KeysDistinct) :
    inKeyOrder (inKeyOrder v) = inKeyOrder v := by
  induction v using Json.values with
  | null => rfl
  | bool b => rfl
  | int n => rfl
  | str s => rfl
  | arr items ih =>
      rw [inKeyOrder_arr, inKeyOrder_arr, List.map_map]
      refine congrArg Json.arr (List.map_congr_left fun item hmem => ?_)
      exact ih item hmem (Json.itemsDistinct_iff.mp h item hmem)
  | obj fields ih =>
      have hagain : (fields.map orderField).map orderField = fields.map orderField := by
        rw [List.map_map]
        refine List.map_congr_left fun field hmem => ?_
        exact Prod.ext rfl (ih field hmem (Json.fieldsDistinct_iff.mp h.2 field hmem))
      have hnodup : ((fields.map orderField).map Prod.fst).Nodup := by
        rw [map_fst_orderField]
        exact h.1
      rw [inKeyOrder_obj, inKeyOrder_obj, ← sortKeys_map (f := orderField) (fun _ => rfl), hagain,
        sortKeys_sortKeys hnodup]

theorem safe_inKeyOrder {v : Json} (h : Safe v) : Safe (inKeyOrder v) := by
  induction v using Json.values with
  | null => trivial
  | bool b => trivial
  | int n => exact h
  | str s => trivial
  | arr items ih =>
      rw [inKeyOrder_arr]
      refine safeItems_iff.mpr (List.forall_mem_map.mpr fun item hmem => ?_)
      exact ih item hmem (safeItems_iff.mp h item hmem)
  | obj fields ih =>
      rw [inKeyOrder_obj]
      refine safeFields_iff.mpr fun field hmem => ?_
      obtain ⟨old, hold, rfl⟩ := List.mem_map.mp ((perm_sortKeys _).mem_iff.mp hmem)
      exact ih old hold (safeFields_iff.mp h old hold)

/-- The text of a value stands for the value in key order. -/
theorem parse_textOf {v : Json} (h : v.KeysDistinct) :
    Json.parse (textOf v) = some (inKeyOrder v) :=
  Json.parse_render (distinct_inKeyOrder h)

theorem textOf_eq_iff {v w : Json} (hv : v.KeysDistinct) (hw : w.KeysDistinct) :
    textOf v = textOf w ↔ SameUpToKeyOrder v w := by
  rw [← inKeyOrder_eq_iff hv]
  constructor
  · intro h
    have hparse := parse_textOf hv
    rw [h, parse_textOf hw] at hparse
    exact (Option.some.inj hparse).symm
  · exact fun h => congrArg (Json.render Json.compact) h

end CopilotRuntime.CanonicalJson
