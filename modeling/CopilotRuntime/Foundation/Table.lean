import CopilotRuntime.Foundation.Dict
import Mathlib.Data.List.MinMax

/-!
# Tables with a primary key

A table keeps each of its rows under the key that the row itself names, so a
key has at most one row and a row is found again under its own key.
-/

namespace CopilotRuntime.Foundation

universe u v w

/-- Rows kept under their keys. -/
structure Table {κ : Type u} {ν : Type v} [DecidableEq κ] (key : ν → κ) where
  dict : Dict κ ν
  keyed : ∀ k v, dict.get? k = some v → key v = k

namespace Table
variable {κ : Type u} {ν : Type v} [DecidableEq κ] {key : ν → κ}

def empty : Table key := ⟨Dict.empty, fun _ _ h => by cases h⟩

/-- The row of a key. -/
def find? (t : Table key) (k : κ) : Option ν := t.dict.get? k

/-- The rows in the order their keys came in. -/
def rows (t : Table key) : List ν := t.dict.values

/-- Insert a row, in place of the one with its key. -/
def put (t : Table key) (v : ν) : Table key where
  dict := t.dict.set (key v) v
  keyed k v' h := by
    rw [Dict.get?_set] at h
    split at h
    · next hk =>
        obtain rfl := Option.some.inj h
        exact hk
    · exact t.keyed k v' h

/-- Delete the row of a key. -/
def delete (t : Table key) (k : κ) : Table key where
  dict := t.dict.erase k
  keyed k' v h := by
    rw [Dict.get?_erase] at h
    split at h
    · cases h
    · exact t.keyed k' v h

@[simp] theorem find?_empty (k : κ) : (empty : Table key).find? k = none := rfl

theorem find?_put (t : Table key) (v : ν) (k : κ) :
    (t.put v).find? k = if key v = k then some v else t.find? k :=
  Dict.get?_set t.dict (key v) v k

@[simp] theorem find?_put_self (t : Table key) (v : ν) : (t.put v).find? (key v) = some v := by
  simp [find?_put]

theorem find?_put_of_ne (t : Table key) {v : ν} {k : κ} (h : key v ≠ k) :
    (t.put v).find? k = t.find? k := by
  simp [find?_put, h]

theorem find?_delete (t : Table key) (k k' : κ) :
    (t.delete k).find? k' = if k = k' then none else t.find? k' :=
  Dict.get?_erase t.dict k k'

theorem key_of_find? {t : Table key} {k : κ} {v : ν} (h : t.find? k = some v) : key v = k :=
  t.keyed k v h

theorem mem_rows_iff {t : Table key} {v : ν} : v ∈ t.rows ↔ t.find? (key v) = some v := by
  rw [rows, Dict.mem_values_iff]
  constructor
  · rintro ⟨k, h⟩
    rw [find?, t.keyed k v h]
    exact h
  · exact fun h => ⟨key v, h⟩

theorem eq_of_mem_rows {t : Table key} {v v' : ν} (h : v ∈ t.rows) (h' : v' ∈ t.rows)
    (hkey : key v = key v') : v = v' := by
  rw [mem_rows_iff] at h h'
  rw [hkey, h'] at h
  exact (Option.some.inj h).symm

theorem mem_rows_put {t : Table key} {v v' : ν} :
    v' ∈ (t.put v).rows ↔ v' = v ∨ v' ∈ t.rows ∧ key v' ≠ key v := by
  rw [mem_rows_iff, find?_put, mem_rows_iff]
  by_cases hkey : key v = key v'
  · rw [if_pos hkey, Option.some.injEq]
    refine ⟨fun h => .inl h.symm, ?_⟩
    rintro (rfl | ⟨-, hne⟩)
    · rfl
    · exact absurd hkey.symm hne
  · rw [if_neg hkey]
    refine ⟨fun h => .inr ⟨h, fun heq => hkey heq.symm⟩, ?_⟩
    rintro (rfl | ⟨h, -⟩)
    · exact absurd rfl hkey
    · exact h

theorem map_key_rows (t : Table key) : t.rows.map key = t.dict.entries.map Prod.fst := by
  rw [rows, Dict.values, List.map_map]
  refine List.map_congr_left fun entry hentry => ?_
  exact t.keyed entry.1 entry.2 (Dict.mem_entries_iff.mp hentry)

/-- No two rows have the same key. -/
theorem nodup_keys (t : Table key) : (t.rows.map key).Nodup := by
  rw [map_key_rows]
  exact t.dict.keys_nodup

theorem nodup_rows (t : Table key) : t.rows.Nodup := t.nodup_keys.of_map _

/-! ### Changing rows in place -/

/-- The row with a key is the first one, and the only one, that has it. -/
theorem find?_eq_find?_rows (t : Table key) (k : κ) :
    t.find? k = t.rows.find? fun v => key v = k := by
  cases hfound : t.find? k with
  | some v =>
      have hkey := key_of_find? hfound
      have hmem : v ∈ t.rows := mem_rows_iff.mpr (hkey ▸ hfound)
      cases hrow : t.rows.find? fun v => key v = k with
      | none =>
          rw [List.find?_eq_none] at hrow
          exact absurd hkey (by simpa using hrow v hmem)
      | some v' =>
          have hkey' : key v' = k := by simpa using List.find?_some hrow
          rw [eq_of_mem_rows hmem (List.mem_of_find?_eq_some hrow) (hkey.trans hkey'.symm)]
  | none =>
      symm
      rw [List.find?_eq_none]
      intro v hmem hkey
      rw [mem_rows_iff, of_decide_eq_true hkey, hfound] at hmem
      cases hmem

section Modify

/-- Change the row of a key, if there is one, in its place. -/
def modify (t : Table key) (k : κ) (f : ν → ν) (hf : ∀ v, key (f v) = key v) : Table key where
  dict :=
    ⟨t.dict.entries.map fun e => (e.1, if e.1 = k then f e.2 else e.2), by
      rw [List.map_map]
      exact t.dict.keys_nodup⟩
  keyed k' v h := by
    rw [Dict.get?, lookupEntries_eq_some_iff] at h
    · obtain ⟨e, he, heq⟩ := List.mem_map.mp h
      obtain ⟨rfl, rfl⟩ := Prod.mk.inj heq
      have hold := t.keyed e.1 e.2 (Dict.mem_entries_iff.mp he)
      split
      · rw [hf, hold]
      · exact hold
    · rw [List.map_map]
      exact t.dict.keys_nodup

variable (t : Table key) (k : κ) (f : ν → ν) (hf : ∀ v, key (f v) = key v)

theorem rows_modify :
    (t.modify k f hf).rows = t.rows.map fun v => if key v = k then f v else v := by
  rw [rows, Dict.values, modify, rows, Dict.values, List.map_map, List.map_map]
  refine List.map_congr_left fun e he => ?_
  rw [Function.comp_apply, Function.comp_apply, t.keyed e.1 e.2 (Dict.mem_entries_iff.mp he)]

theorem find?_modify (k' : κ) :
    (t.modify k f hf).find? k' = if k' = k then (t.find? k').map f else t.find? k' := by
  have hkey (v : ν) : key (if key v = k then f v else v) = key v := by
    split
    · exact hf v
    · rfl
  rw [find?_eq_find?_rows, rows_modify, List.find?_map, find?_eq_find?_rows]
  have hcomp : ((fun v => decide (key v = k')) ∘ fun v => if key v = k then f v else v) =
      fun v => decide (key v = k') := by
    funext v
    rw [Function.comp_apply, hkey]
  rw [hcomp]
  cases hrow : t.rows.find? fun v => decide (key v = k') with
  | none => rw [Option.map_none, Option.map_none, ite_self]
  | some v =>
      have hv : key v = k' := by simpa using List.find?_some hrow
      rw [Option.map_some, Option.map_some, hv]
      split
      · rfl
      · rfl

/-- What a change in place does not touch stays the same for all rows. -/
theorem map_rows_modify {β : Type w} {g : ν → β} (hg : ∀ v, g (f v) = g v) :
    (t.modify k f hf).rows.map g = t.rows.map g := by
  rw [rows_modify, List.map_map]
  refine List.map_congr_left fun v _ => ?_
  rw [Function.comp_apply]
  split
  · exact hg v
  · rfl

end Modify

/-! ### Counting rows -/

variable (p : ν → Bool)

/-- The number of rows that satisfy a condition. -/
def count (t : Table key) : Nat := t.rows.countP p

/-- Whether the row of a key satisfies the condition, as a number. -/
def countAt (t : Table key) (k : κ) : Nat := ((t.find? k).map fun v => (p v).toNat).getD 0

theorem count_eq_weight (t : Table key) : t.count p = t.dict.weight fun v => (p v).toNat := by
  rw [count, rows, Dict.values, Dict.weight]
  induction t.dict.entries with
  | nil => rfl
  | cons entry rest ih =>
      rw [List.map_cons, List.countP_cons, ih, List.map_cons, List.sum_cons, Nat.add_comm]
      cases p entry.2 with
      | true => rfl
      | false => rfl

/-- An inserted row counts in place of the one with its key. -/
theorem count_put (t : Table key) (v : ν) :
    (t.put v).count p + t.countAt p (key v) = t.count p + (p v).toNat := by
  rw [count_eq_weight, count_eq_weight]
  exact t.dict.weight_set _ (key v) v

/-- A deleted row no longer counts. -/
theorem count_delete (t : Table key) (k : κ) :
    (t.delete k).count p + t.countAt p k = t.count p := by
  rw [count_eq_weight, count_eq_weight]
  exact t.dict.weight_erase _ k

/-! ### New keys -/

/-- A text longer than every key of the table. -/
def newKey {ν : Type v} {key : ν → String} (t : Table key) : String :=
  let longest := (t.rows.map fun v => (key v).length).foldr max 0
  String.ofList (List.replicate (longest + 1) 'x')

/-- A text longer than all of the texts. -/
def newText (texts : List String) : String :=
  String.ofList (List.replicate ((texts.map String.length).foldr max 0 + 1) 'x')

theorem newText_not_mem (texts : List String) : newText texts ∉ texts := by
  intro hmem
  have hle : (newText texts).length ≤ (texts.map String.length).foldr max 0 :=
    List.le_max_of_le' 0 (List.mem_map_of_mem hmem) (Nat.le_refl _)
  simp only [newText, String.length_ofList, List.length_replicate] at hle
  omega

theorem find?_newKey {ν : Type v} {key : ν → String} (t : Table key) :
    t.find? t.newKey = none := by
  cases hfound : t.find? t.newKey with
  | none => rfl
  | some v =>
      have hkey := key_of_find? hfound
      have hmem : v ∈ t.rows := mem_rows_iff.mpr (by rw [hkey, hfound])
      have hnew : newText (t.rows.map key) = t.newKey := by
        rw [newText, List.map_map]
        rfl
      refine absurd ?_ (newText_not_mem (t.rows.map key))
      rw [hnew, ← hkey]
      exact List.mem_map_of_mem hmem

end Table

end CopilotRuntime.Foundation

/-!
# Tables with a partial unique index

Beside its key a row may have an entry in an index, and no two rows have the same
entry. Rows without an entry are not constrained.
-/

namespace CopilotRuntime.Foundation

universe u v x

/-- A table of which no two rows have the same entry in the index. -/
structure IndexedTable {κ : Type u} {ν : Type v} {ι : Type x} [DecidableEq κ] (key : ν → κ)
    (index : ν → Option ι) where
  table : Table key
  unique : ∀ r ∈ table.rows, ∀ r' ∈ table.rows, ∀ i, index r = some i → index r' = some i → r = r'

namespace IndexedTable
variable {κ : Type u} {ν : Type v} {ι : Type x} [DecidableEq κ] {key : ν → κ}
  {index : ν → Option ι} {t : IndexedTable key index} {r r' : ν} {k : κ} {i : ι}

def empty : IndexedTable key index := ⟨.empty, nofun⟩

def rows (t : IndexedTable key index) : List ν := t.table.rows

def find? (t : IndexedTable key index) (k : κ) : Option ν := t.table.find? k

theorem mem_rows_iff : r ∈ t.rows ↔ t.find? (key r) = some r := Table.mem_rows_iff

theorem mem_of_find? (h : t.find? k = some r) : r ∈ t.rows := by
  rw [mem_rows_iff, Table.key_of_find? h, h]

theorem eq_of_mem_rows (h : r ∈ t.rows) (h' : r' ∈ t.rows) (hkey : key r = key r') : r = r' :=
  Table.eq_of_mem_rows h h' hkey

/-! ### Storing rows -/

/-- The row takes no index entry of a row with another key. -/
def Admits (t : IndexedTable key index) (r : ν) : Prop :=
  ∀ r' ∈ t.rows, ∀ i, index r = some i → index r' = some i → key r' = key r

theorem admits_of_index_none (h : index r = none) : t.Admits r := by
  intro r' _ i hi
  rw [h] at hi
  cases hi

/-- A row may stand in the place of one with its key and its index entry. -/
theorem admits_of_find? (h : t.find? (key r) = some r') (hindex : index r = index r') :
    t.Admits r := by
  intro s hs i hi hi'
  obtain rfl := t.unique s hs r' (mem_of_find? h) i hi' (hindex ▸ hi)
  exact Table.key_of_find? h

/-- Store a row, in place of the one with its key. -/
def put (t : IndexedTable key index) (r : ν) (h : t.Admits r) : IndexedTable key index where
  table := t.table.put r
  unique := by
    intro s hs s' hs' i hi hi'
    obtain heq | ⟨hold, hne⟩ := Table.mem_rows_put.mp hs
    · obtain heq' | ⟨hold', hne'⟩ := Table.mem_rows_put.mp hs'
      · exact heq.trans heq'.symm
      · exact absurd (h s' hold' i (heq ▸ hi) hi') hne'
    · obtain heq' | ⟨hold', -⟩ := Table.mem_rows_put.mp hs'
      · exact absurd (h s hold i (heq' ▸ hi') hi) hne
      · exact t.unique s hold s' hold' i hi hi'

theorem mem_rows_put (h : t.Admits r) :
    r' ∈ (t.put r h).rows ↔ r' = r ∨ r' ∈ t.rows ∧ key r' ≠ key r :=
  Table.mem_rows_put

/-! ### The index -/

section Index
variable [DecidableEq ι]

/-- The row with an entry in the index. -/
def lookup (t : IndexedTable key index) (i : ι) : Option ν := t.rows.find? fun r => index r = some i

theorem lookup_eq_none_iff : t.lookup i = none ↔ ∀ r ∈ t.rows, index r ≠ some i := by
  rw [lookup, List.find?_eq_none]
  exact forall₂_congr fun r _ => not_congr decide_eq_true_iff

theorem lookup_eq_some_iff : t.lookup i = some r ↔ r ∈ t.rows ∧ index r = some i := by
  constructor
  · intro h
    rw [lookup] at h
    exact ⟨List.mem_of_find?_eq_some h, by simpa using List.find?_some h⟩
  · rintro ⟨hmem, hindex⟩
    cases hfound : t.lookup i with
    | none => exact absurd hindex (lookup_eq_none_iff.mp hfound r hmem)
    | some r' =>
        rw [lookup] at hfound
        have hindex' : index r' = some i := by simpa using List.find?_some hfound
        rw [t.unique r hmem r' (List.mem_of_find?_eq_some hfound) i hindex hindex']

theorem admits_of_lookup_none (h : (index r).bind t.lookup = none) : t.Admits r := by
  intro r' hmem i hi hi'
  rw [hi, Option.bind_some] at h
  exact absurd hi' (lookup_eq_none_iff.mp h r' hmem)

/-- Store a row, unless its index entry is taken. -/
def insert? (t : IndexedTable key index) (r : ν) : Option (IndexedTable key index) :=
  if h : (index r).bind t.lookup = none then some (t.put r (admits_of_lookup_none h)) else none

theorem insert?_eq_some {t' : IndexedTable key index} (h : t.insert? r = some t') :
    (index r).bind t.lookup = none ∧ ∃ hadmits, t' = t.put r hadmits := by
  rw [insert?] at h
  split at h
  · next hnone => exact ⟨hnone, _, (Option.some.inj h).symm⟩
  · cases h

/-- A row that is stored is beside those with other keys. -/
theorem mem_rows_of_insert? {t' : IndexedTable key index} (h : t.insert? r = some t') :
    r' ∈ t'.rows ↔ r' = r ∨ r' ∈ t.rows ∧ key r' ≠ key r := by
  obtain ⟨-, hadmits, rfl⟩ := insert?_eq_some h
  exact mem_rows_put hadmits

/-- A row whose entry no other one has is stored. -/
theorem insert?_of_free (h : ∀ r' ∈ t.rows, ∀ i, index r = some i → index r' ≠ some i) :
    ∃ t', t.insert? r = some t' := by
  have hfree : (index r).bind t.lookup = none := by
    cases hindex : index r with
    | none => rfl
    | some i => exact lookup_eq_none_iff.mpr fun r' hr' => h r' hr' i hindex
  exact ⟨_, dif_pos hfree⟩

end Index

end IndexedTable

end CopilotRuntime.Foundation
