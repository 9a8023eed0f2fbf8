import Mathlib.Data.List.Basic

/-!
# Paging by offsets

A list is read page by page: each page is a slice of at most `limit` elements,
and the next one starts where it ends. Read from the start to the last page the
slices are the list.
-/

namespace CopilotRuntime.Foundation.Paging

universe u

variable {α : Type u}

/-- The page that starts at an offset. -/
def slice (xs : List α) (limit start : Nat) : List α := (xs.drop start).take limit

/-- The offset of the last page. -/
def lastOffset (limit total : Nat) : Nat := (total - 1) / limit * limit

/-- The offsets of the pages from one on. -/
def offsets (limit total start : Nat) : List Nat :=
  if 0 < limit ∧ start + limit < total then start :: offsets limit total (start + limit)
  else [start]
  termination_by total - start

variable {xs : List α} {limit start : Nat}

theorem mem_of_mem_slice {x : α} (h : x ∈ slice xs limit start) :
    x ∈ xs :=
  List.mem_of_mem_drop (List.mem_of_mem_take h)

theorem length_slice_le (xs : List α) (limit start : Nat) : (slice xs limit start).length ≤ limit :=
  List.length_take_le _ _

/-- A page that is followed by another is full. -/
theorem length_slice_of_lt (h : start + limit < xs.length) :
    (slice xs limit start).length = limit := by
  rw [slice, List.length_take, List.length_drop]
  omega

/-- Every element is the first of a page. -/
theorem exists_mem_slice (hlimit : 0 < limit) {x : α} (h : x ∈ xs) :
    ∃ start, x ∈ slice xs limit start := by
  obtain ⟨start, hstart, rfl⟩ := List.mem_iff_getElem.mp h
  refine ⟨start, ?_⟩
  rw [slice, List.drop_eq_getElem_cons hstart]
  obtain ⟨n, rfl⟩ : ∃ n, limit = n + 1 := ⟨limit - 1, by omega⟩
  exact List.mem_cons_self

variable {total : Nat}

theorem offsets_of_lt (hlimit : 0 < limit) (h : start + limit < total) :
    offsets limit total start = start :: offsets limit total (start + limit) := by
  rw [offsets, if_pos ⟨hlimit, h⟩]

theorem offsets_of_le (h : total ≤ start + limit) :
    offsets limit total start = [start] := by
  rw [offsets, if_neg]
  omega

/-- The last page starts at a multiple of the limit, with at most one page left. -/
theorem eq_lastOffset {page : Nat} (hlimit : 0 < limit) (hstart : page = 0 ∨ page * limit < total)
    (hlast : total ≤ page * limit + limit) :
    page * limit = lastOffset limit total := by
  have hpage : (total - 1) / limit = page := by
    rw [Nat.div_eq_iff hlimit]
    obtain rfl | hlt := hstart
    · omega
    · omega
  rw [lastOffset, hpage]

/-- The pages before the last are full pages, and the last page starts at the last offset. -/
theorem offsets_eq (total : Nat) (hlimit : 0 < limit) (page : Nat)
    (hstart : page = 0 ∨ page * limit < total) :
    ∃ before, offsets limit total (page * limit) = before ++ [lastOffset limit total] ∧
      ∀ start ∈ before, start + limit < total := by
  by_cases hmore : page * limit + limit < total
  · have hnext : (page + 1) * limit = page * limit + limit := Nat.succ_mul page limit
    obtain ⟨before, heq, hfull⟩ := offsets_eq total hlimit (page + 1) (.inr (hnext ▸ hmore))
    refine ⟨page * limit :: before, ?_, ?_⟩
    · rw [offsets_of_lt hlimit hmore, ← hnext, heq, List.cons_append]
    · intro start hmem
      obtain rfl | hmem := List.mem_cons.mp hmem
      · exact hmore
      · exact hfull start hmem
  · refine ⟨[], ?_, by simp⟩
    rw [offsets_of_le (Nat.not_lt.mp hmore), eq_lastOffset hlimit hstart (Nat.not_lt.mp hmore),
      List.nil_append]
  termination_by total - page * limit
  decreasing_by
    rw [Nat.succ_mul]
    omega

/-- Read from an offset on, the slices are the rest of the list. -/
theorem flatMap_slice_offsets (xs : List α) (hlimit : 0 < limit) (start : Nat) :
    (offsets limit xs.length start).flatMap (slice xs limit) = xs.drop start := by
  by_cases hmore : start + limit < xs.length
  · rw [offsets_of_lt hlimit hmore, List.flatMap_cons,
      flatMap_slice_offsets xs hlimit (start + limit), slice, ← List.drop_drop,
      List.take_append_drop]
  · rw [offsets_of_le (Nat.not_lt.mp hmore), List.flatMap_singleton, slice, List.take_of_length_le]
    rw [List.length_drop]
    omega
  termination_by xs.length - start

end CopilotRuntime.Foundation.Paging
