import Mathlib.Algebra.BigOperators.Group.List.Basic
import Mathlib.Algebra.GroupWithZero.Nat
import Mathlib.Data.List.Nodup

/-!
# Insertion-ordered dictionaries

A dictionary lists its entries in the order their keys were first inserted.
Overwriting a key keeps its position; keys are pairwise distinct by
construction.

## Implementation notes

Association lists in the mathematical library reorder their entries on
insertion. Iteration order is observable here, so it is part of the data.
-/

namespace CopilotRuntime.Foundation

universe u v

variable {κ : Type u} {ν : Type v} [DecidableEq κ]

/-- The value of the first entry with the given key. -/
def lookupEntries : List (κ × ν) → κ → Option ν
  | [], _ => none
  | (key, value) :: rest, k => if key = k then some value else lookupEntries rest k

/-- Overwrite the entry with the given key in place, or append a new entry. -/
def setEntries : List (κ × ν) → κ → ν → List (κ × ν)
  | [], k, v => [(k, v)]
  | (key, value) :: rest, k, v =>
      if key = k then (k, v) :: rest else (key, value) :: setEntries rest k v

theorem lookupEntries_setEntries (entries : List (κ × ν)) (k : κ) (v : ν) (k' : κ) :
    lookupEntries (setEntries entries k v) k' =
      if k = k' then some v else lookupEntries entries k' := by
  induction entries with
  | nil => rfl
  | cons entry rest ih =>
      obtain ⟨key, value⟩ := entry
      by_cases hk : key = k
      · subst hk
        by_cases hk' : key = k' <;> simp [setEntries, lookupEntries, hk']
      · by_cases hk' : key = k'
        · subst hk'
          simp [setEntries, lookupEntries, hk, Ne.symm hk]
        · simp [setEntries, lookupEntries, hk, hk', ih]

theorem keys_setEntries (entries : List (κ × ν)) (k : κ) (v : ν) :
    (setEntries entries k v).map Prod.fst =
      if k ∈ entries.map Prod.fst then entries.map Prod.fst
      else entries.map Prod.fst ++ [k] := by
  induction entries with
  | nil => simp [setEntries]
  | cons entry rest ih =>
      obtain ⟨key, value⟩ := entry
      by_cases hk : key = k
      · subst hk
        simp [setEntries]
      · simp only [setEntries, if_neg hk, List.map_cons, ih, List.mem_cons, Ne.symm hk,
          false_or]
        split <;> rfl

theorem nodup_setEntries {entries : List (κ × ν)} (h : (entries.map Prod.fst).Nodup)
    (k : κ) (v : ν) : ((setEntries entries k v).map Prod.fst).Nodup := by
  rw [keys_setEntries]
  split
  · exact h
  · next hk =>
      refine List.Nodup.append h (List.nodup_singleton k) ?_
      simpa [List.disjoint_singleton] using hk

theorem lookupEntries_eq_some_iff {entries : List (κ × ν)}
    (h : (entries.map Prod.fst).Nodup) {k : κ} {v : ν} :
    lookupEntries entries k = some v ↔ (k, v) ∈ entries := by
  induction entries with
  | nil => simp [lookupEntries]
  | cons entry rest ih =>
      obtain ⟨key, value⟩ := entry
      obtain ⟨hnot, hrest⟩ := List.nodup_cons.mp h
      by_cases hk : key = k
      · subst hk
        have hfree : (key, v) ∉ rest := fun hmem =>
          hnot (List.mem_map.mpr ⟨(key, v), hmem, rfl⟩)
        simp [lookupEntries, hfree, eq_comm]
      · simp [lookupEntries, hk, ih hrest, Ne.symm hk]

/-- A dictionary whose keys are pairwise distinct. -/
structure Dict (κ : Type u) (ν : Type v) where
  entries : List (κ × ν)
  keys_nodup : (entries.map Prod.fst).Nodup

namespace Dict

/-- The dictionary with no entries. -/
def empty : Dict κ ν := ⟨[], List.nodup_nil⟩

/-- The value stored under a key. -/
def get? (d : Dict κ ν) (k : κ) : Option ν := lookupEntries d.entries k

/-- Store a value under a key. -/
def set (d : Dict κ ν) (k : κ) (v : ν) : Dict κ ν :=
  ⟨setEntries d.entries k v, nodup_setEntries d.keys_nodup k v⟩

/-- The stored values in insertion order. -/
def values (d : Dict κ ν) : List ν := d.entries.map Prod.snd

variable {d : Dict κ ν}

theorem mem_values_iff {v : ν} : v ∈ d.values ↔ ∃ k, d.get? k = some v := by
  unfold values get?
  rw [List.mem_map]
  constructor
  · rintro ⟨⟨k, v'⟩, hmem, rfl⟩
    exact ⟨k, (lookupEntries_eq_some_iff d.keys_nodup).mpr hmem⟩
  · rintro ⟨k, hget⟩
    exact ⟨(k, v), (lookupEntries_eq_some_iff d.keys_nodup).mp hget, rfl⟩

@[simp] theorem get?_empty (k : κ) : (empty : Dict κ ν).get? k = none := rfl

theorem get?_set (d : Dict κ ν) (k : κ) (v : ν) (k' : κ) :
    (d.set k v).get? k' = if k = k' then some v else d.get? k' :=
  lookupEntries_setEntries d.entries k v k'

@[simp] theorem get?_set_self (d : Dict κ ν) (k : κ) (v : ν) :
    (d.set k v).get? k = some v := by
  simp [get?_set]

variable {k : κ}

theorem get?_set_of_ne (d : Dict κ ν) {k' : κ} (v : ν) (h : k ≠ k') :
    (d.set k v).get? k' = d.get? k' := by
  simp [get?_set, h]

theorem setEntries_of_lookup_none {entries : List (κ × ν)} (v : ν)
    (h : lookupEntries entries k = none) : setEntries entries k v = entries ++ [(k, v)] := by
  induction entries with
  | nil => rfl
  | cons entry rest ih =>
      obtain ⟨key, value⟩ := entry
      unfold lookupEntries at h
      by_cases hk : key = k
      · rw [if_pos hk] at h
        cases h
      · rw [if_neg hk] at h
        rw [setEntries, if_neg hk, ih h, List.cons_append]

/-- A new key adds its value at the end. -/
theorem values_set_of_get?_none (v : ν) (h : d.get? k = none) :
    (d.set k v).values = d.values ++ [v] := by
  have hentries : (d.set k v).entries = d.entries ++ [(k, v)] := setEntries_of_lookup_none v h
  rw [values, hentries, List.map_append]
  rfl

/-- Forget a key. -/
def erase (d : Dict κ ν) (k : κ) : Dict κ ν :=
  ⟨d.entries.filter fun entry => entry.1 ≠ k,
    d.keys_nodup.sublist (List.filter_sublist.map Prod.fst)⟩

theorem get?_erase (d : Dict κ ν) (k k' : κ) :
    (d.erase k).get? k' = if k = k' then none else d.get? k' := by
  unfold get? erase
  dsimp only
  induction d.entries with
  | nil => simp [lookupEntries]
  | cons entry rest ih =>
      obtain ⟨key, value⟩ := entry
      by_cases hk : key = k
      · subst hk
        by_cases hk' : key = k' <;> simp_all [lookupEntries]
      · by_cases hk' : key = k'
        · subst hk'
          simp [lookupEntries, hk, Ne.symm hk]
        · simpa [lookupEntries, hk, hk'] using ih

@[simp] theorem get?_erase_self (d : Dict κ ν) (k : κ) : (d.erase k).get? k = none := by
  simp [get?_erase]

theorem get?_erase_of_ne (d : Dict κ ν) {k' : κ} (h : k ≠ k') :
    (d.erase k).get? k' = d.get? k' := by
  simp [get?_erase, h]

/-- A stored key stays present whatever is stored later. -/
theorem isSome_get?_set (h : (d.get? k).isSome) (k' : κ) (v : ν) :
    ((d.set k' v).get? k).isSome := by
  rw [get?_set]
  split
  · rfl
  · exact h

/-- The entries whose keys satisfy a predicate. -/
def restrict (d : Dict κ ν) (p : κ → Bool) : Dict κ ν :=
  ⟨d.entries.filter fun entry => p entry.1,
    d.keys_nodup.sublist (List.filter_sublist.map Prod.fst)⟩

theorem get?_restrict (d : Dict κ ν) (p : κ → Bool) (k : κ) :
    (d.restrict p).get? k = if p k then d.get? k else none := by
  unfold get? restrict
  dsimp only
  induction d.entries with
  | nil => simp [lookupEntries]
  | cons entry rest ih =>
      obtain ⟨key, value⟩ := entry
      rw [List.filter_cons]
      by_cases hk : key = k
      · subst hk
        cases hp : p key with
        | true => simp [lookupEntries]
        | false => simpa [hp] using ih
      · cases hp : p key <;> simpa [lookupEntries, hk] using ih

theorem mem_entries_iff {entry : κ × ν} :
    entry ∈ d.entries ↔ d.get? entry.1 = some entry.2 :=
  (lookupEntries_eq_some_iff d.keys_nodup).symm

/-- Store every entry of another dictionary, in its order. -/
def update (d other : Dict κ ν) : Dict κ ν :=
  other.entries.foldl (fun d entry => d.set entry.1 entry.2) d

theorem get?_foldl_set (entries : List (κ × ν)) (h : (entries.map Prod.fst).Nodup) (d : Dict κ ν)
    (k : κ) : (entries.foldl (fun d entry => d.set entry.1 entry.2) d).get? k =
      (lookupEntries entries k).or (d.get? k) := by
  induction entries generalizing d with
  | nil => rfl
  | cons entry rest ih =>
      obtain ⟨key, value⟩ := entry
      obtain ⟨hnot, hrest⟩ := List.nodup_cons.mp h
      rw [List.foldl_cons, ih hrest, get?_set, lookupEntries]
      by_cases hk : key = k
      · have hnone : lookupEntries rest k = none := by
          by_contra hsome
          obtain ⟨v, hv⟩ := Option.ne_none_iff_exists'.mp hsome
          subst hk
          have hmem : (key, v) ∈ rest := (lookupEntries_eq_some_iff hrest).mp hv
          exact hnot (List.mem_map.mpr ⟨(key, v), hmem, rfl⟩)
        simp [hk, hnone]
      · simp [hk]

/-- An updated dictionary reads the other one first. -/
theorem get?_update (d other : Dict κ ν) (k : κ) :
    (d.update other).get? k = (other.get? k).or (d.get? k) :=
  get?_foldl_set other.entries other.keys_nodup d k

variable {p : κ → Bool}

theorem filter_setEntries_of_neg (hp : p k = false) (entries : List (κ × ν)) (v : ν) :
    (setEntries entries k v).filter (fun e => p e.1) = entries.filter fun e => p e.1 := by
  induction entries with
  | nil => simp [setEntries, hp]
  | cons entry rest ih =>
      obtain ⟨key, value⟩ := entry
      by_cases hk : key = k
      · simp [setEntries, hk, hp]
      · simp only [setEntries, if_neg hk, List.filter_cons, ih]

theorem filter_setEntries_of_pos (hp : p k = true) (entries : List (κ × ν)) (v : ν) :
    (setEntries entries k v).filter (fun e => p e.1) =
      setEntries (entries.filter fun e => p e.1) k v := by
  induction entries with
  | nil => simp [setEntries, hp]
  | cons entry rest ih =>
      obtain ⟨key, value⟩ := entry
      by_cases hk : key = k
      · subst hk
        simp [setEntries, hp]
      · simp only [setEntries, if_neg hk, List.filter_cons, ih]
        cases p key <;> simp [setEntries, hk]

/-- Updating a dictionary none of whose entries is kept keeps the other one's entries. -/
theorem filter_update (hd : d.entries.filter (fun e => p e.1) = []) (other : Dict κ ν) :
    (d.update other).entries.filter (fun e => p e.1) = other.entries.filter fun e => p e.1 := by
  have hfold (entries : List (κ × ν)) (hnodup : (entries.map Prod.fst).Nodup) (d : Dict κ ν)
      (hfree : ∀ e ∈ entries, p e.1 = true → d.get? e.1 = none) :
      (entries.foldl (fun d entry => d.set entry.1 entry.2) d).entries.filter (fun e => p e.1) =
        d.entries.filter (fun e => p e.1) ++ entries.filter fun e => p e.1 := by
    induction entries generalizing d with
    | nil => simp
    | cons entry rest ih =>
        obtain ⟨key, value⟩ := entry
        obtain ⟨hnot, hrest⟩ := List.nodup_cons.mp hnodup
        rw [List.foldl_cons, ih hrest]
        · cases hp : p key with
          | false =>
              have hentries : (d.set key value).entries = setEntries d.entries key value := rfl
              rw [hentries, filter_setEntries_of_neg hp]
              simp [hp]
          | true =>
              have hnone := hfree (key, value) List.mem_cons_self hp
              have hentries : (d.set key value).entries = d.entries ++ [(key, value)] :=
                setEntries_of_lookup_none value hnone
              rw [hentries]
              simp [hp]
        · intro e he hpe
          have hne : key ≠ e.1 := fun heq => hnot (List.mem_map.mpr ⟨e, he, heq.symm⟩)
          rw [get?_set_of_ne _ _ hne]
          exact hfree e (List.mem_cons_of_mem _ he) hpe
  have hfree : ∀ e ∈ other.entries, p e.1 = true → d.get? e.1 = none := by
    intro e _ hpe
    by_contra hsome
    obtain ⟨v, hv⟩ := Option.ne_none_iff_exists'.mp hsome
    have hstored : (e.1, v) ∈ d.entries := (lookupEntries_eq_some_iff d.keys_nodup).mp hv
    have hmem : (e.1, v) ∈ d.entries.filter fun e => p e.1 := List.mem_filter.mpr ⟨hstored, hpe⟩
    rw [hd] at hmem
    exact List.not_mem_nil hmem
  rw [update, hfold other.entries other.keys_nodup d hfree, hd, List.nil_append]

end Dict

end CopilotRuntime.Foundation

/-!
# Weights of dictionaries

The weight of a dictionary is the sum of a measure over its values. Setting or
erasing one key changes it by the measures of the two values of that key.
-/

namespace CopilotRuntime.Foundation.Dict

universe u v w

variable {κ : Type u} {ν : Type v} [DecidableEq κ]

omit [DecidableEq κ] in
/-- The sum of a measure over the values of a dictionary. -/
def weight (f : ν → Nat) (d : Dict κ ν) : Nat := (d.entries.map fun entry => f entry.2).sum

/-- The measure of the value of a key, if there is one. -/
def weightAt (f : ν → Nat) (d : Dict κ ν) (k : κ) : Nat := ((d.get? k).map f).getD 0

omit [DecidableEq κ] in
omit [DecidableEq κ] in
theorem weight_one (d : Dict κ ν) : d.weight (fun _ => 1) = d.entries.length := by
  simp [weight]

theorem sum_setEntries (f : ν → Nat) (entries : List (κ × ν)) (k : κ) (v : ν) :
    ((setEntries entries k v).map fun entry => f entry.2).sum +
        ((lookupEntries entries k).map f).getD 0 =
      (entries.map fun entry => f entry.2).sum + f v := by
  induction entries with
  | nil => simp [setEntries, lookupEntries]
  | cons entry rest ih =>
      obtain ⟨k', v'⟩ := entry
      by_cases hk : k' = k
      · simp [setEntries, lookupEntries, hk]
        omega
      · simp only [setEntries, lookupEntries, hk, if_false, List.map_cons, List.sum_cons]
        omega

/-- A new value takes the place of the old one in the sum. -/
theorem weight_set (f : ν → Nat) (d : Dict κ ν) (k : κ) (v : ν) :
    (d.set k v).weight f + d.weightAt f k = d.weight f + f v :=
  sum_setEntries f d.entries k v

/-- Two new values take the places of the old ones of their keys. -/
theorem weight_set_set (f : ν → Nat) (d : Dict κ ν) {k k' : κ} (h : k ≠ k') (v v' : ν) :
    ((d.set k v).set k' v').weight f + d.weightAt f k + d.weightAt f k' =
      d.weight f + f v + f v' := by
  have hfirst := d.weight_set f k v
  have hsecond := (d.set k v).weight_set f k' v'
  rw [weightAt, get?_set_of_ne d v h] at hsecond
  rw [weightAt, weightAt] at *
  omega

theorem sum_filter_ne (f : ν → Nat) {entries : List (κ × ν)}
    (hnodup : (entries.map Prod.fst).Nodup) (k : κ) :
    ((entries.filter fun entry => entry.1 ≠ k).map fun entry => f entry.2).sum +
        ((lookupEntries entries k).map f).getD 0 =
      (entries.map fun entry => f entry.2).sum := by
  induction entries with
  | nil => rfl
  | cons entry rest ih =>
      obtain ⟨k', v'⟩ := entry
      obtain ⟨hnot, hrest⟩ := List.nodup_cons.mp hnodup
      by_cases hk : k' = k
      · have hkept : rest.filter (fun entry => entry.1 ≠ k) = rest := by
          refine List.filter_eq_self.mpr fun other hother => decide_eq_true fun heq => hnot ?_
          exact List.mem_map.mpr ⟨other, hother, heq.trans hk.symm⟩
        rw [List.filter_cons_of_neg (by simpa using hk), hkept, lookupEntries, if_pos hk]
        simp [Nat.add_comm]
      · have hsum := ih hrest
        rw [List.filter_cons_of_pos (by simpa using hk), lookupEntries, if_neg hk, List.map_cons,
          List.map_cons, List.sum_cons, List.sum_cons]
        omega

/-- An erased value leaves the sum. -/
theorem weight_erase (f : ν → Nat) (d : Dict κ ν) (k : κ) :
    (d.erase k).weight f + d.weightAt f k = d.weight f :=
  sum_filter_ne f d.keys_nodup k

/-- The weight only depends on the measures that the keys have. -/
theorem weight_congr {f : ν → Nat} {d d' : Dict κ ν}
    (h : ∀ k, (d.get? k).map f = (d'.get? k).map f) : d.weight f = d'.weight f := by
  have hnodup : ∀ d : Dict κ ν, (d.entries.map fun entry => (entry.1, f entry.2)).Nodup := by
    intro d
    have hkeys := d.keys_nodup
    rw [show d.entries.map Prod.fst =
      (d.entries.map fun entry => (entry.1, f entry.2)).map Prod.fst by simp] at hkeys
    exact hkeys.of_map _
  have hmem : ∀ (d : Dict κ ν) k n,
      (k, n) ∈ d.entries.map (fun entry => (entry.1, f entry.2)) ↔ (d.get? k).map f = some n := by
    intro d k n
    rw [List.mem_map, Option.map_eq_some_iff]
    constructor
    · rintro ⟨⟨k', v⟩, hentry, heq⟩
      obtain ⟨rfl, rfl⟩ := Prod.mk.inj heq
      exact ⟨v, mem_entries_iff.mp hentry, rfl⟩
    · rintro ⟨v, hv, rfl⟩
      exact ⟨(k, v), mem_entries_iff.mpr hv, rfl⟩
  have hperm : (d.entries.map fun entry => (entry.1, f entry.2)).Perm
      (d'.entries.map fun entry => (entry.1, f entry.2)) := by
    rw [List.perm_ext_iff_of_nodup (hnodup d) (hnodup d')]
    rintro ⟨k, n⟩
    rw [hmem, hmem, h]
  have hsums := (hperm.map Prod.snd).sum_eq
  simpa [weight, Function.comp_def] using hsums

end CopilotRuntime.Foundation.Dict

/-!
# Dictionaries that file values under their own keys

A dictionary that only ever receives new values, each under a key of its own,
lists them in the order they came in.
-/

namespace CopilotRuntime.Foundation

universe u v

variable {κ : Type u} {ν : Type v} [DecidableEq κ]

/-- Add an element unless one with its key is present. -/
def addOnce (key : ν → κ) (xs : List ν) (x : ν) : List ν :=
  if key x ∈ xs.map key then xs else xs ++ [x]

/-- The dictionary holds exactly the listed values, each under its key. -/
def Files (key : ν → κ) (d : Dict κ ν) (xs : List ν) : Prop :=
  d.entries = xs.map fun x => (key x, x)

namespace Files
variable {key : ν → κ} {d : Dict κ ν} {xs : List ν}

omit [DecidableEq κ] in
theorem empty (key : ν → κ) : Files key Dict.empty [] := rfl

omit [DecidableEq κ] in
theorem length_entries (h : Files key d xs) : d.entries.length = xs.length := by
  rw [h, List.length_map]

omit [DecidableEq κ] in
variable {x : ν}

theorem get?_eq_some_iff (h : Files key d xs) {k : κ} :
    d.get? k = some x ↔ x ∈ xs ∧ key x = k := by
  have hentry : (k, x) ∈ d.entries ↔ d.get? k = some x := Dict.mem_entries_iff
  rw [← hentry, h, List.mem_map]
  constructor
  · rintro ⟨y, hy, heq⟩
    obtain ⟨rfl, rfl⟩ := Prod.mk.inj heq
    exact ⟨hy, rfl⟩
  · rintro ⟨hx, rfl⟩
    exact ⟨x, hx, rfl⟩

theorem get?_eq_none_iff (h : Files key d xs) {k : κ} : d.get? k = none ↔ k ∉ xs.map key := by
  constructor
  · intro hnone hmem
    obtain ⟨x, hx, hk⟩ := List.mem_map.mp hmem
    have hsome := h.get?_eq_some_iff.mpr ⟨hx, hk⟩
    rw [hnone] at hsome
    cases hsome
  · intro hfresh
    by_contra hsome
    obtain ⟨x, hx⟩ := Option.ne_none_iff_exists'.mp hsome
    obtain ⟨hmem, rfl⟩ := h.get?_eq_some_iff.mp hx
    exact hfresh (List.mem_map_of_mem hmem)

theorem get?_of_mem (h : Files key d xs) (hx : x ∈ xs) : d.get? (key x) = some x :=
  h.get?_eq_some_iff.mpr ⟨hx, rfl⟩

/-- A new value is listed last. -/
theorem set (h : Files key d xs) (hfresh : d.get? (key x) = none) :
    Files key (d.set (key x) x) (xs ++ [x]) := by
  have hentries : (d.set (key x) x).entries = d.entries ++ [(key x, x)] :=
    Dict.setEntries_of_lookup_none x hfresh
  rw [Files, hentries, h, List.map_append]
  rfl

theorem addOnce_of_fresh (h : Files key d xs) (hfresh : d.get? (key x) = none) :
    addOnce key xs x = xs ++ [x] :=
  if_neg (h.get?_eq_none_iff.mp hfresh)

theorem addOnce_of_known (h : Files key d xs) (hknown : d.get? (key x) = some x) :
    addOnce key xs x = xs :=
  if_pos (List.mem_map_of_mem (h.get?_eq_some_iff.mp hknown).1)

end Files

end CopilotRuntime.Foundation
