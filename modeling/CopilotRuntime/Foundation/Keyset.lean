import Mathlib.Data.List.Sort

/-!
# Paging by keys

Rows that are sorted by a key alone may come in any order where the keys tie. The
first of them are the same in every such order exactly when none of them ties with a
row after it.

A list with strictly descending keys is read page by page: each page holds the first
rows below the key that the page before it ended with.
-/

namespace CopilotRuntime.Foundation.Keyset

universe u v

variable {α : Type u} {β : Type v}

/-! ### Orders with ties -/

section Ties
variable [LinearOrder β] (f : α → β)

/-- An order in which no row comes after one with a smaller key. -/
structure Arrangement (xs ys : List α) : Prop where
  perm : ys.Perm xs
  descending : ys.Pairwise fun a b => f b ≤ f a

/-- Sorting keeps the order of rows that need not change places. -/
theorem exists_arrangement (xs : List α) :
    ∃ ys, Arrangement f xs ys ∧ ∀ a b, [a, b].Sublist xs → f b ≤ f a → [a, b].Sublist ys := by
  classical
  let r : α → α → Prop := fun a b => f b ≤ f a
  have htotal : Std.Total r := ⟨fun a b => le_total (f b) (f a)⟩
  have htrans : IsTrans α r := ⟨fun a b c hab hbc => le_trans hbc hab⟩
  refine ⟨xs.insertionSort r, ⟨List.perm_insertionSort r xs, List.pairwise_insertionSort r xs⟩, ?_⟩
  intro a b hsub hle
  exact List.sublist_insertionSort (List.pairwise_pair.mpr hle) hsub

variable {f}

theorem Arrangement.nodup {xs ys : List α} (h : Arrangement f xs ys) (hnodup : xs.Nodup) :
    ys.Nodup :=
  h.perm.nodup_iff.mpr hnodup

/-- Two rows in one order cannot come in the other one. -/
theorem not_sublist_swap {xs : List α} {a b : α} (hnodup : xs.Nodup) (h : [a, b].Sublist xs) :
    ¬ [b, a].Sublist xs := by
  intro hswap
  obtain ⟨before, after, rfl, hbefore, hafter⟩ := List.append_sublist_iff.mp
    (show ([a] ++ [b]).Sublist xs from h)
  obtain ⟨before', after', heq, hbefore', hafter'⟩ := List.append_sublist_iff.mp
    (show ([b] ++ [a]).Sublist (before ++ after) from hswap)
  rw [List.singleton_sublist] at hbefore hafter hbefore' hafter'
  have hdisjoint := List.disjoint_of_nodup_append hnodup
  have hdisjoint' := List.disjoint_of_nodup_append (heq ▸ hnodup)
  obtain ⟨more, rfl, rfl⟩ | ⟨more, rfl, rfl⟩ := List.append_eq_append_iff.mp heq
  · exact hdisjoint' (List.mem_append_left _ hbefore) hafter'
  · exact hdisjoint (List.mem_append_left _ hbefore') hafter

/-- A row comes before another in some order exactly when its key is not smaller. -/
theorem exists_arrangement_before {xs : List α} {a b : α} (ha : a ∈ xs) (hb : b ∈ xs) (hne : a ≠ b)
    (hle : f b ≤ f a) : ∃ ys, Arrangement f xs ys ∧ [a, b].Sublist ys := by
  classical
  have hbrest : b ∈ xs.erase a := (List.mem_erase_of_ne hne.symm).mpr hb
  have hfront : [a, b].Sublist (a :: xs.erase a) := (List.singleton_sublist.mpr hbrest).cons_cons a
  obtain ⟨ys, hys, hkeeps⟩ := exists_arrangement f (a :: xs.erase a)
  exact ⟨ys, ⟨hys.perm.trans (List.perm_cons_erase ha).symm, hys.descending⟩, hkeeps a b hfront hle⟩

/-- The first rows are the same in every order exactly when each of them has a greater key than
every row after it. -/
theorem take_eq_iff {xs : List α} (hnodup : xs.Nodup) (n : Nat) :
    (∀ ys, Arrangement f xs ys → ys.take n = xs.take n) ↔
      ∀ before a after, xs = before ++ a :: after → before.length < n → ∀ b ∈ after, f b < f a := by
  constructor
  · intro hsame before a after hxs hlt b hb
    by_contra hle
    have ha : a ∈ xs := hxs ▸ List.mem_append_right _ List.mem_cons_self
    have hbxs : b ∈ xs := hxs ▸ List.mem_append_right _ (List.mem_cons_of_mem _ hb)
    have hforward : [a, b].Sublist xs := by
      rw [hxs]
      exact ((List.singleton_sublist.mpr hb).cons_cons a).trans (List.sublist_append_right _ _)
    have hne : b ≠ a := by
      rintro rfl
      exact not_sublist_swap hnodup hforward hforward
    obtain ⟨ys, hys, hswapped⟩ := exists_arrangement_before hbxs ha hne (not_lt.mp hle)
    -- The order starts with the same rows as the list, and so `a` comes before `b` in it.
    have hstart : before ++ [a] <+: ys := by
      have hshort : (before ++ [a]).length ≤ n := by
        rw [List.length_append]
        exact hlt
      have hpre : before ++ [a] <+: xs.take n :=
        List.prefix_take_iff.mpr ⟨⟨after, by rw [hxs, List.append_assoc]; rfl⟩, hshort⟩
      rw [← hsame ys hys] at hpre
      exact hpre.trans (List.take_prefix n ys)
    obtain ⟨rest, hrest⟩ := hstart
    have hbrest : b ∈ rest := by
      have hbys : b ∈ ys := hys.perm.mem_iff.mpr hbxs
      rw [← hrest] at hbys
      refine (List.mem_append.mp hbys).resolve_left fun hearly => ?_
      rw [hxs, List.append_cons] at hnodup
      exact List.disjoint_of_nodup_append hnodup hearly hb
    have hbefore : [a, b].Sublist ys := by
      rw [← hrest, List.append_assoc]
      exact ((List.singleton_sublist.mpr hbrest).cons_cons a).trans (List.sublist_append_right _ _)
    exact not_sublist_swap (hys.nodup hnodup) hbefore hswapped
  · intro hgreater
    induction xs generalizing n with
    | nil =>
        intro ys hys
        rw [hys.perm.eq_nil]
    | cons a rest ih =>
        intro ys hys
        cases n with
        | zero => rw [List.take_zero, List.take_zero]
        | succ n =>
            have hmost : ∀ b ∈ rest, f b < f a :=
              hgreater [] a rest rfl (Nat.succ_pos n)
            obtain ⟨c, more, rfl⟩ : ∃ c more, ys = c :: more :=
              List.exists_cons_of_length_pos (hys.perm.length_eq ▸ Nat.succ_pos _)
            have hfirst : c = a := by
              rcases List.mem_cons.mp (hys.perm.subset List.mem_cons_self) with heq | hlater
              · exact heq
              · rcases List.mem_cons.mp (hys.perm.symm.subset List.mem_cons_self) with heq | ha
                · exact heq.symm
                · have hle := List.rel_of_pairwise_cons hys.descending ha
                  exact absurd (hmost c hlater) (not_lt.mpr hle)
            subst hfirst
            have hmore : Arrangement f rest more :=
              ⟨hys.perm.cons_inv, hys.descending.of_cons⟩
            rw [List.take_succ_cons, List.take_succ_cons,
              ih hnodup.of_cons n (fun before b after hrest hlt =>
                hgreater (c :: before) b after (by rw [hrest]; rfl) (Nat.succ_lt_succ hlt)) more hmore]

/-- A row is among the first in every order exactly when few other rows reach its key. -/
theorem mem_take_iff [DecidableEq α] {xs : List α} (hnodup : xs.Nodup) {a : α} (ha : a ∈ xs)
    (n : Nat) :
    (∀ ys, Arrangement f xs ys → a ∈ ys.take n) ↔
      (xs.filter fun b => b ≠ a ∧ f a ≤ f b).length < n := by
  have hmem : ∀ b, b ∈ (xs.filter fun b => b ≠ a ∧ f a ≤ f b) ↔ b ∈ xs ∧ b ≠ a ∧ f a ≤ f b := by
    intro b
    rw [List.mem_filter, decide_eq_true_iff]
  constructor
  · intro hfirst
    -- In the order that puts `a` last where it can, those rows come before it.
    have hperm : (xs.erase a ++ [a]).Perm xs :=
      List.perm_append_comm.trans (List.perm_cons_erase ha).symm
    obtain ⟨ys, hys, hkeeps⟩ := exists_arrangement f (xs.erase a ++ [a])
    have hys' : Arrangement f xs ys := ⟨hys.perm.trans hperm, hys.descending⟩
    obtain ⟨before, after, hsplit⟩ :=
      List.append_of_mem (hys'.perm.mem_iff.mpr ha)
    have hsub : (xs.filter fun b => b ≠ a ∧ f a ≤ f b) ⊆ before := by
      intro b hb
      obtain ⟨hbxs, hne, hle⟩ := (hmem b).mp hb
      have hpair : [b, a].Sublist (xs.erase a ++ [a]) := by
        have hberase : b ∈ xs.erase a := (List.mem_erase_of_ne hne).mpr hbxs
        exact List.Sublist.append (List.singleton_sublist.mpr hberase) (List.Sublist.refl [a])
      have hbefore := hkeeps b a hpair hle
      have hbys : b ∈ ys := hys'.perm.mem_iff.mpr hbxs
      rw [hsplit] at hbys
      refine (List.mem_append.mp hbys).resolve_right fun hlater => ?_
      have hbafter := (List.mem_cons.mp hlater).resolve_left hne
      have hswapped : [a, b].Sublist ys := by
        rw [hsplit]
        exact ((List.singleton_sublist.mpr hbafter).cons_cons a).trans
          (List.sublist_append_right _ _)
      exact not_sublist_swap (hys'.nodup hnodup) hbefore hswapped
    have hlength := (List.subperm_of_subset (hnodup.filter _) hsub).length_le
    have hindex : before.length < n := by
      by_contra hle
      have hearly := hfirst ys hys'
      rw [hsplit, List.take_append_of_le_length (not_lt.mp hle)] at hearly
      have hnodup' := hys'.nodup hnodup
      rw [hsplit] at hnodup'
      exact List.disjoint_of_nodup_append hnodup' (List.mem_of_mem_take hearly) List.mem_cons_self
    exact lt_of_le_of_lt hlength hindex
  · intro hfew ys hys
    obtain ⟨before, after, rfl⟩ := List.append_of_mem (hys.perm.mem_iff.mpr ha)
    have hnodup' := hys.nodup hnodup
    have hsub : before ⊆ xs.filter fun b => b ≠ a ∧ f a ≤ f b := by
      intro b hb
      rw [hmem]
      refine ⟨hys.perm.subset (List.mem_append_left _ hb), ?_, ?_⟩
      · rintro rfl
        exact List.disjoint_of_nodup_append hnodup' hb List.mem_cons_self
      · exact (List.pairwise_append.mp hys.descending).2.2 b hb a List.mem_cons_self
    have hlength := (List.subperm_of_subset (List.nodup_append.mp hnodup').1 hsub).length_le
    obtain ⟨more, hmore⟩ : ∃ more, n = before.length + (more + 1) := ⟨n - before.length - 1, by omega⟩
    rw [hmore, List.take_length_add_append, List.take_succ_cons]
    exact List.mem_append_right _ List.mem_cons_self

/-- A row is among the first in some order exactly when few rows have a greater key. -/
theorem exists_mem_take_iff {xs : List α} (hnodup : xs.Nodup) {a : α} (ha : a ∈ xs) (n : Nat) :
    (∃ ys, Arrangement f xs ys ∧ a ∈ ys.take n) ↔ (xs.filter fun b => f a < f b).length < n := by
  classical
  constructor
  · rintro ⟨ys, hys, hearly⟩
    obtain ⟨before, after, hsplit⟩ := List.append_of_mem (hys.perm.mem_iff.mpr ha)
    have hdescending := hys.descending
    have hnodup' := hys.nodup hnodup
    rw [hsplit] at hearly hdescending hnodup'
    have hsub : (xs.filter fun b => f a < f b) ⊆ before := by
      intro b hb
      obtain ⟨hbxs, hlt⟩ := List.mem_filter.mp hb
      replace hlt := of_decide_eq_true hlt
      have hbys : b ∈ ys := hys.perm.mem_iff.mpr hbxs
      rw [hsplit] at hbys
      refine (List.mem_append.mp hbys).resolve_right fun hlater => ?_
      obtain rfl | hbafter := List.mem_cons.mp hlater
      · exact lt_irrefl _ hlt
      · have htail := (List.pairwise_append.mp hdescending).2.1
        exact absurd hlt (not_lt.mpr (List.rel_of_pairwise_cons htail hbafter))
    have hlength := (List.subperm_of_subset (hnodup.filter _) hsub).length_le
    have hindex : before.length < n := by
      by_contra hle
      rw [List.take_append_of_le_length (not_lt.mp hle)] at hearly
      exact List.disjoint_of_nodup_append hnodup' (List.mem_of_mem_take hearly) List.mem_cons_self
    exact lt_of_le_of_lt hlength hindex
  · intro hfew
    obtain ⟨ys, hys, hkeeps⟩ := exists_arrangement f (a :: xs.erase a)
    have hys' : Arrangement f xs ys :=
      ⟨hys.perm.trans (List.perm_cons_erase ha).symm, hys.descending⟩
    refine ⟨ys, hys', ?_⟩
    obtain ⟨before, after, rfl⟩ := List.append_of_mem (hys'.perm.mem_iff.mpr ha)
    have hnodup' := hys'.nodup hnodup
    have hsub : before ⊆ xs.filter fun b => f a < f b := by
      intro b hb
      have hbxs : b ∈ xs := hys'.perm.subset (List.mem_append_left _ hb)
      rw [List.mem_filter, decide_eq_true_iff]
      refine ⟨hbxs, not_le.mp fun hle => ?_⟩
      have hne : b ≠ a := by
        rintro rfl
        exact List.disjoint_of_nodup_append hnodup' hb List.mem_cons_self
      have hpair : [a, b].Sublist (a :: xs.erase a) :=
        (List.singleton_sublist.mpr ((List.mem_erase_of_ne hne).mpr hbxs)).cons_cons a
      have hswapped : [b, a].Sublist (before ++ a :: after) :=
        List.Sublist.append (List.singleton_sublist.mpr hb)
          (List.singleton_sublist.mpr List.mem_cons_self)
      exact not_sublist_swap hnodup' (hkeeps a b hpair hle) hswapped
    have hlength := (List.subperm_of_subset (List.nodup_append.mp hnodup').1 hsub).length_le
    obtain ⟨more, hmore⟩ : ∃ more, n = before.length + (more + 1) := ⟨n - before.length - 1, by omega⟩
    rw [hmore, List.take_length_add_append, List.take_succ_cons]
    exact List.mem_append_right _ List.mem_cons_self

end Ties

/-! ### Pages -/

section Pages
variable [LinearOrder β] (key : α → β)

/-- The rows below a key. -/
def after (xs : List α) : Option β → List α
  | none => xs
  | some bound => xs.filter fun x => key x < bound

/-- The pages that are read by asking for the rows after the last one until a page is short. -/
inductive Followed (lists : Option α → List α → Prop) (limit : Nat) :
    Option α → List (List α) → Prop
  | last {cursor : Option α} {page : List α} (listed : lists cursor page)
      (short : page.length < limit) : Followed lists limit cursor [page]
  | next {cursor : Option α} {page : List α} {last : α} {pages : List (List α)}
      (listed : lists cursor page) (full : limit ≤ page.length)
      (ends : page.getLast? = some last) (rest : Followed lists limit (some last) pages) :
      Followed lists limit cursor (page :: pages)

variable {key} {xs : List α}

theorem pairwise_after (h : xs.Pairwise fun a b => key b < key a) (cursor : Option β) :
    (after key xs cursor).Pairwise fun a b => key b < key a := by
  cases cursor with
  | none => exact h
  | some bound => exact h.filter _

/-- What is below the last row of a page are the rows after the page. -/
theorem after_getLast (h : xs.Pairwise fun a b => key b < key a) {cursor : Option β}
    {before rest : List α} {last : α} (hsplit : after key xs cursor = before ++ last :: rest) :
    after key xs (some (key last)) = rest := by
  have hbelow : after key xs (some (key last)) =
      (after key xs cursor).filter fun x => key x < key last := by
    cases cursor with
    | none => rfl
    | some bound =>
        have hlast : last ∈ after key xs (some bound) :=
          hsplit ▸ List.mem_append_right _ List.mem_cons_self
        have hbound : key last < bound := of_decide_eq_true (List.mem_filter.mp hlast).2
        rw [after, after, List.filter_filter]
        apply List.filter_congr
        intro x _
        by_cases hx : key x < key last
        · simp [hx, hx.trans hbound]
        · simp [hx]
  have hsorted := pairwise_after h cursor
  rw [hsplit] at hsorted hbelow
  obtain ⟨_, hrest, hcross⟩ := List.pairwise_append.mp hsorted
  rw [hbelow, List.filter_append, List.filter_cons_of_neg (by simp),
    List.filter_eq_nil_iff.mpr fun x hx => by
      simpa using (hcross x hx last List.mem_cons_self).le, List.nil_append,
    List.filter_eq_self]
  intro x hx
  exact decide_eq_true (List.rel_of_pairwise_cons hrest hx)

theorem mem_of_mem_after {cursor : Option β} {a : α} (h : a ∈ after key xs cursor) : a ∈ xs := by
  cases cursor with
  | none => exact h
  | some bound => exact List.mem_of_mem_filter h

/-- Pages of the rows below their cursors are together all the rows, in order. -/
theorem flatten_of_followed (h : xs.Pairwise fun a b => key b < key a)
    {lists : Option α → List α → Prop} {limit : Nat}
    (hlists : ∀ cursor page, (∀ a ∈ cursor, a ∈ xs) → lists cursor page →
      page = (after key xs (cursor.map key)).take limit)
    {cursor : Option α} (hcursor : ∀ a ∈ cursor, a ∈ xs) {pages : List (List α)}
    (hpages : Followed lists limit cursor pages) :
    pages.flatten = after key xs (cursor.map key) := by
  induction hpages with
  | last listed short =>
      rw [List.flatten_singleton, hlists _ _ hcursor listed]
      apply List.take_of_length_le
      rw [hlists _ _ hcursor listed, List.length_take] at short
      omega
  | @next cursor page last pages listed full ends _ ih =>
      obtain ⟨before, rfl⟩ := List.getLast?_eq_some_iff.mp ends
      have hpage := hlists _ _ hcursor listed
      have hsplit : after key xs (cursor.map key) =
          before ++ last :: (after key xs (cursor.map key)).drop limit := by
        calc after key xs (cursor.map key)
            = (after key xs (cursor.map key)).take limit ++
                (after key xs (cursor.map key)).drop limit := (List.take_append_drop _ _).symm
          _ = before ++ last :: (after key xs (cursor.map key)).drop limit := by
              rw [← hpage, List.append_assoc, List.singleton_append]
      have hlast : last ∈ xs :=
        mem_of_mem_after (hsplit ▸ List.mem_append_right _ List.mem_cons_self)
      have hrest : pages.flatten = after key xs (some (key last)) :=
        ih fun a ha => Option.some.inj ha ▸ hlast
      rw [List.flatten_cons, hrest, after_getLast h hsplit, List.append_assoc,
        List.singleton_append, ← hsplit]

/-- Where every page with room for a row can be read, the last one is reached. -/
theorem exists_followed (h : xs.Pairwise fun a b => key b < key a)
    {lists : Option α → List α → Prop} {limit : Nat} (hlimit : 0 < limit)
    (hlists : ∀ cursor, (∀ a ∈ cursor, a ∈ xs) →
      lists cursor ((after key xs (cursor.map key)).take limit))
    (cursor : Option α) (hcursor : ∀ a ∈ cursor, a ∈ xs) :
    ∃ pages, Followed lists limit cursor pages := by
  by_cases hshort : ((after key xs (cursor.map key)).take limit).length < limit
  · exact ⟨_, .last (hlists cursor hcursor) hshort⟩
  · have hfull : limit ≤ ((after key xs (cursor.map key)).take limit).length := not_lt.mp hshort
    obtain ⟨last, hlast⟩ :
        ∃ last, ((after key xs (cursor.map key)).take limit).getLast? = some last := by
      rw [← Option.isSome_iff_exists, List.getLast?_isSome]
      intro hnil
      rw [hnil, List.length_nil] at hfull
      omega
    obtain ⟨before, hpage⟩ := List.getLast?_eq_some_iff.mp hlast
    have hsplit : after key xs (cursor.map key) =
        before ++ last :: (after key xs (cursor.map key)).drop limit := by
      conv_lhs => rw [← List.take_append_drop limit (after key xs (cursor.map key)), hpage]
      rw [List.append_assoc, List.singleton_append]
    have hmem : last ∈ xs := mem_of_mem_after (hsplit ▸ List.mem_append_right _ List.mem_cons_self)
    have hless : (after key xs ((some last).map key)).length <
        (after key xs (cursor.map key)).length := by
      rw [Option.map_some, after_getLast h hsplit, List.length_drop]
      rw [List.length_take] at hfull
      omega
    obtain ⟨pages, hpages⟩ := exists_followed h hlimit hlists (some last)
      fun a ha => Option.some.inj ha ▸ hmem
    exact ⟨_, .next (hlists cursor hcursor) hfull hlast hpages⟩
  termination_by (after key xs (cursor.map key)).length

/-- A row is on the first page exactly when few rows come before it. -/
theorem mem_take_iff_of_descending (h : xs.Pairwise fun a b => key b < key a) {a : α} (ha : a ∈ xs)
    (n : Nat) : a ∈ xs.take n ↔ (xs.filter fun b => key a < key b).length < n := by
  obtain ⟨before, rest, rfl⟩ := List.append_of_mem ha
  obtain ⟨_, hrest, hcross⟩ := List.pairwise_append.mp h
  have hgreater : (before ++ a :: rest).filter (fun b => key a < key b) = before := by
    rw [List.filter_append, List.filter_eq_self.mpr fun b hb =>
        decide_eq_true (hcross b hb a List.mem_cons_self),
      List.filter_eq_nil_iff.mpr, List.append_nil]
    intro b hb
    obtain rfl | hlater := List.mem_cons.mp hb
    · simp
    · simpa using (List.rel_of_pairwise_cons hrest hlater).le
  rw [hgreater]
  constructor
  · intro hearly
    by_contra hle
    rw [List.take_append_of_le_length (not_lt.mp hle)] at hearly
    exact lt_irrefl _ (hcross a (List.mem_of_mem_take hearly) a List.mem_cons_self)
  · intro hlt
    obtain ⟨more, hmore⟩ : ∃ more, n = before.length + (more + 1) := ⟨n - before.length - 1, by omega⟩
    rw [hmore, List.take_length_add_append, List.take_succ_cons]
    exact List.mem_append_right _ List.mem_cons_self

end Pages

end CopilotRuntime.Foundation.Keyset
