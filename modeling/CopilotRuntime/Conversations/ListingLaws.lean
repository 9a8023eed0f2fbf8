import CopilotRuntime.Conversations.Listing

/-!
# Agreement of the listings

When the file store lists what the store in memory lists, whatever order its index
chooses for rows with equal texts, and what a reader of all pages sees.
-/

namespace CopilotRuntime.Conversations

open Foundation

variable {q : ListConversations} {rows : List ConversationRecord}

/-! ### Order and pages -/

theorem sorted_perm (records : List ConversationRecord) : (sorted records).Perm records :=
  List.perm_insertionSort _ _

variable {records : List ConversationRecord} {r : ConversationRecord}

theorem mem_sorted :
    r ∈ sorted records ↔ r ∈ records :=
  (sorted_perm records).mem_iff

theorem conversationId_of_key {a b : ConversationRecord} (h : a.key = b.key) :
    a.conversationId = b.conversationId :=
  congrArg (fun k => (ofLex k).2) h

/-- Rows with different ids have different keys, so that their order is strict. -/
theorem sorted_descending (h : (records.map ConversationRecord.conversationId).Nodup) :
    (sorted records).Pairwise fun a b => b.key < a.key := by
  have htotal : Std.Total fun a b : ConversationRecord => b.key ≤ a.key :=
    ⟨fun a b => le_total b.key a.key⟩
  have htrans : IsTrans ConversationRecord fun a b => b.key ≤ a.key :=
    ⟨fun a b c hab hbc => le_trans hbc hab⟩
  have hle : (sorted records).Pairwise fun a b => b.key ≤ a.key := List.pairwise_insertionSort _ _
  have hne : (sorted records).Pairwise fun a b => a.conversationId ≠ b.conversationId := by
    rw [← List.pairwise_map, ← List.nodup_iff_pairwise_ne]
    exact ((sorted_perm records).map _).nodup_iff.mpr h
  exact (hle.and hne).imp fun ⟨hab, hid⟩ =>
    lt_of_le_of_ne hab fun heq => hid (conversationId_of_key heq).symm

/-- Lists in strict order with the same rows are equal. -/
theorem eq_of_descending {xs ys : List ConversationRecord}
    (hxs : xs.Pairwise fun a b => b.key < a.key) (hys : ys.Pairwise fun a b => b.key < a.key)
    (h : ∀ r, r ∈ xs ↔ r ∈ ys) : xs = ys := by
  have hasymm : Std.Antisymm fun a b : ConversationRecord => b.key < a.key :=
    ⟨fun a b hab hba => absurd hab (lt_asymm hba)⟩
  have hirrefl {zs : List ConversationRecord} (hzs : zs.Pairwise fun a b => b.key < a.key) :
      zs.Nodup :=
    hzs.imp fun hlt heq => absurd (heq ▸ hlt) (lt_irrefl _)
  exact ((List.perm_ext_iff_of_nodup (hirrefl hxs) (hirrefl hys)).mpr h).eq_of_pairwise' hxs hys

/-- A row below the boundary of a page, if it has one. -/
def below (q : ListConversations) (r : ConversationRecord) : Prop := ∀ bound ∈ q.boundary, r.key < bound

instance (q : ListConversations) : DecidablePred (below q) := fun r =>
  inferInstanceAs (Decidable (∀ bound ∈ q.boundary, r.key < bound))

theorem mem_after :
    r ∈ Keyset.after ConversationRecord.key (sorted records) q.boundary ↔ r ∈ records ∧ below q r := by
  unfold below
  cases q.boundary with
  | none => simp [Keyset.after, mem_sorted]
  | some bound => simp [Keyset.after, mem_sorted, List.mem_filter]

/-- The rows of a page's section that come before a row. -/
def newerThan (q : ListConversations) (records : List ConversationRecord) (r : ConversationRecord) :
    List ConversationRecord :=
  records.filter fun other => below q other ∧ r.key < other.key

theorem mem_page_iff (h : (records.map ConversationRecord.conversationId).Nodup) :
    r ∈ page q records ↔ r ∈ records ∧ below q r ∧ (newerThan q records r).length < q.limit := by
  have hdescending := Keyset.pairwise_after (sorted_descending h) q.boundary
  have hcount : ((Keyset.after ConversationRecord.key (sorted records) q.boundary).filter
      fun other => r.key < other.key).length = (newerThan q records r).length := by
    have hperm : ((Keyset.after ConversationRecord.key (sorted records) q.boundary).filter
        fun other => r.key < other.key).Perm (newerThan q records r) := by
      have hnodup := h.of_map
      refine (List.perm_ext_iff_of_nodup ?_ (hnodup.filter _)).mpr fun other => ?_
      · exact (hdescending.imp fun hlt heq => absurd (heq ▸ hlt) (lt_irrefl _)).filter _
      · simp only [List.mem_filter, mem_after, decide_eq_true_eq, and_assoc]
    exact hperm.length_eq
  constructor
  · intro hmem
    have hafter := List.mem_of_mem_take hmem
    rw [page, Keyset.mem_take_iff_of_descending hdescending hafter, hcount] at hmem
    exact ⟨(mem_after.mp hafter).1, (mem_after.mp hafter).2, hmem⟩
  · rintro ⟨hrecord, hbelow, hfew⟩
    rw [page, Keyset.mem_take_iff_of_descending hdescending (mem_after.mpr ⟨hrecord, hbelow⟩), hcount]
    exact hfew

theorem page_descending (h : (records.map ConversationRecord.conversationId).Nodup) :
    (page q records).Pairwise fun a b => b.key < a.key :=
  (Keyset.pairwise_after (sorted_descending h) q.boundary).take

theorem mem_newerThan {other : ConversationRecord} :
    other ∈ newerThan q records r ↔ other ∈ records ∧ below q other ∧ r.key < other.key := by
  rw [newerThan, List.mem_filter, decide_eq_true_iff]

/-- Rows of two lists, newer in the one than rows in the other, are counted by inclusion. -/
theorem length_newerThan_le {records' : List ConversationRecord} {r' : ConversationRecord}
    (hnodup : records.Nodup)
    (h : ∀ other ∈ newerThan q records r, other ∈ newerThan q records' r') :
    (newerThan q records r).length ≤ (newerThan q records' r').length :=
  (List.subperm_of_subset (hnodup.filter _) h).length_le

/-- If enough rows are newer than `r`, the page is full of them. -/
theorem page_full (h : (records.map ConversationRecord.conversationId).Nodup)
    (hmany : q.limit ≤ (newerThan q records r).length) :
    (page q records).length = q.limit ∧ ∀ m ∈ page q records, r.key < m.key := by
  have hnodup : records.Nodup := h.of_map
  constructor
  · have hsub : (newerThan q records r).length ≤
        (Keyset.after ConversationRecord.key (sorted records) q.boundary).length := by
      refine (List.subperm_of_subset (hnodup.filter _) fun other hother => ?_).length_le
      obtain ⟨hrecord, hbelow, _⟩ := mem_newerThan.mp hother
      exact mem_after.mpr ⟨hrecord, hbelow⟩
    rw [page, List.length_take]
    omega
  · intro m hm
    obtain ⟨_, _, hfew⟩ := (mem_page_iff h).mp hm
    by_contra hle
    have hmore : (newerThan q records r).length ≤ (newerThan q records m).length :=
      length_newerThan_le hnodup fun other hother => by
        obtain ⟨hrecord, hbelow, hlt⟩ := mem_newerThan.mp hother
        exact mem_newerThan.mpr ⟨hrecord, hbelow, lt_of_le_of_lt (not_lt.mp hle) hlt⟩
    omega

/-! ### When the stores agree -/

/-- Each row of the first page has a later text than every listed row after it. -/
def FirstPageAgrees (q : ListConversations) (rows : List ConversationRecord) : Prop :=
  ∀ before a after, sorted (rows.filter (InMemoryRuntimeApiStore.isListed q)) = before ++ a :: after →
    before.length < q.limit → ∀ b ∈ after, b.updatedText < a.updatedText

/-- The rows that a scan of the index goes through. -/
def candidates (q : ListConversations) (rows : List ConversationRecord) : List ConversationRecord :=
  rows.filter (CatalogIndex.isSelected q (FileRuntimeApiStore.scanQuery q))

/-- The scan reaches every row of the page, and no row that is not listed gets onto it. -/
structure ScanAgrees (q : ListConversations) (rows : List ConversationRecord) : Prop where
  reached : ∀ r ∈ InMemoryRuntimeApiStore.listConversations q rows,
    ((candidates q rows).filter fun other => other.conversationId ≠ r.conversationId ∧
      r.updatedText ≤ other.updatedText).length < FileRuntimeApiStore.bucketScanCeiling
  displaced : ∀ a ∈ candidates q rows, FileRuntimeApiStore.inBucket q a = true →
    InMemoryRuntimeApiStore.isListed q a = false → below q a →
    ((candidates q rows).filter fun other => a.updatedText < other.updatedText).length <
      FileRuntimeApiStore.bucketScanCeiling →
    q.limit ≤ (newerThan q (rows.filter (InMemoryRuntimeApiStore.isListed q)) a).length

/-- The condition under which the file store lists what the store in memory does. -/
def Agreeable (q : ListConversations) (rows : List ConversationRecord) : Prop :=
  if FileRuntimeApiStore.keysetMode q then ScanAgrees q rows else FirstPageAgrees q rows

theorem isSelected_firstPage (hmode : FileRuntimeApiStore.keysetMode q = false) (r : ConversationRecord) :
    CatalogIndex.isSelected q (FileRuntimeApiStore.firstPageQuery q) r =
      InMemoryRuntimeApiStore.isListed q r := by
  have hbucket : q.bucket = none := by
    simp only [FileRuntimeApiStore.keysetMode, Bool.or_eq_false_iff, Option.isSome_eq_false_iff,
      Option.isNone_iff_eq_none] at hmode
    exact hmode.1
  simp only [CatalogIndex.isSelected, FileRuntimeApiStore.firstPageQuery,
    InMemoryRuntimeApiStore.isListed, hbucket, Bool.and_assoc]

theorem candidate_of_isListed (h : InMemoryRuntimeApiStore.isListed q r = true) :
    CatalogIndex.isSelected q (FileRuntimeApiStore.scanQuery q) r = true ∧
      FileRuntimeApiStore.inBucket q r = true := by
  unfold InMemoryRuntimeApiStore.isListed at h
  unfold CatalogIndex.isSelected FileRuntimeApiStore.scanQuery FileRuntimeApiStore.inBucket
  cases hbucket : q.bucket with
  | none =>
      rw [hbucket] at h
      simp only [Bool.and_eq_true] at h
      simp [h.1, h.2.2]
  | some bucket =>
      rw [hbucket] at h
      simp only [Bool.and_eq_true] at h
      simp [h.1, h.2.1, h.2.2]

theorem arrangement_of_perm {xs ys zs : List ConversationRecord} (hperm : xs.Perm ys)
    (h : Keyset.Arrangement ConversationRecord.updatedText xs zs) :
    Keyset.Arrangement ConversationRecord.updatedText ys zs :=
  ⟨h.perm.trans hperm, h.descending⟩

section Agreement
variable (hids : (rows.map ConversationRecord.conversationId).Nodup)
include hids

theorem nodup_ids_filter (p : ConversationRecord → Bool) :
    ((rows.filter p).map ConversationRecord.conversationId).Nodup :=
  hids.sublist (List.filter_sublist.map _)

theorem firstPage_agrees_iff (hmode : FileRuntimeApiStore.keysetMode q = false) :
    (∀ listed, FileRuntimeApiStore.Lists q rows listed →
      listed = InMemoryRuntimeApiStore.listConversations q rows) ↔ FirstPageAgrees q rows := by
  have hboundary : q.boundary = none := by
    simp only [FileRuntimeApiStore.keysetMode, Bool.or_eq_false_iff, Option.isSome_eq_false_iff,
      Option.isNone_iff_eq_none] at hmode
    exact hmode.2
  have hpage : InMemoryRuntimeApiStore.listConversations q rows =
      (sorted (rows.filter (InMemoryRuntimeApiStore.isListed q))).take q.limit := by
    rw [InMemoryRuntimeApiStore.listConversations, page, hboundary, Keyset.after]
  have hselected : rows.filter (CatalogIndex.isSelected q (FileRuntimeApiStore.firstPageQuery q)) =
      rows.filter (InMemoryRuntimeApiStore.isListed q) :=
    List.filter_congr fun r _ => isSelected_firstPage hmode r
  have hnodup : (sorted (rows.filter (InMemoryRuntimeApiStore.isListed q))).Nodup :=
    (sorted_perm _).nodup_iff.mpr (nodup_ids_filter hids _).of_map
  rw [FirstPageAgrees, ← Keyset.take_eq_iff hnodup, hpage]
  simp only [FileRuntimeApiStore.Lists, hmode, Bool.false_eq_true, if_false, CatalogIndex.Lists,
    hselected]
  constructor
  · intro hsame ordered hordered
    exact hsame _ ⟨ordered, arrangement_of_perm (sorted_perm _) hordered, rfl⟩
  · rintro hsame listed ⟨ordered, hordered, rfl⟩
    exact hsame ordered (arrangement_of_perm (sorted_perm _).symm hordered)

/-- A row that a scan reaches in every order. -/
theorem mem_scanned_iff {r : ConversationRecord} (hr : r ∈ candidates q rows) :
    (∀ scanned, CatalogIndex.Lists q (FileRuntimeApiStore.scanQuery q) rows scanned → r ∈ scanned) ↔
      ((candidates q rows).filter fun other => other.conversationId ≠ r.conversationId ∧
        r.updatedText ≤ other.updatedText).length < FileRuntimeApiStore.bucketScanCeiling := by
  classical
  have hnodup : (candidates q rows).Nodup := (nodup_ids_filter hids _).of_map
  have hother : ((candidates q rows).filter fun other =>
      other.conversationId ≠ r.conversationId ∧ r.updatedText ≤ other.updatedText) =
        (candidates q rows).filter fun other => other ≠ r ∧ r.updatedText ≤ other.updatedText := by
    apply List.filter_congr
    intro other hmem
    have hid : other.conversationId = r.conversationId ↔ other = r :=
      ⟨List.inj_on_of_nodup_map (nodup_ids_filter hids _) hmem hr, congrArg _⟩
    simp only [ne_eq, hid]
  rw [hother, ← Keyset.mem_take_iff hnodup hr]
  constructor
  · exact fun h ordered hordered => h _ ⟨ordered, hordered, rfl⟩
  · rintro h scanned ⟨ordered, hordered, rfl⟩
    exact h ordered hordered

/-- A row that a scan reaches in some order. -/
theorem exists_scanned_iff {r : ConversationRecord} (hr : r ∈ candidates q rows) :
    (∃ scanned, CatalogIndex.Lists q (FileRuntimeApiStore.scanQuery q) rows scanned ∧ r ∈ scanned) ↔
      ((candidates q rows).filter fun other => r.updatedText < other.updatedText).length <
        FileRuntimeApiStore.bucketScanCeiling := by
  have hnodup : (candidates q rows).Nodup := (nodup_ids_filter hids _).of_map
  rw [← Keyset.exists_mem_take_iff hnodup hr]
  constructor
  · rintro ⟨_, ⟨ordered, hordered, rfl⟩, hmem⟩
    exact ⟨ordered, hordered, hmem⟩
  · rintro ⟨ordered, hordered, hmem⟩
    exact ⟨_, ⟨ordered, hordered, rfl⟩, hmem⟩

section Scan
variable {scanned : List ConversationRecord}
  (hscan : CatalogIndex.Lists q (FileRuntimeApiStore.scanQuery q) rows scanned)
include hscan

omit hids in
theorem mem_candidates_of_mem_scanned {r : ConversationRecord} (hr : r ∈ scanned) :
    r ∈ candidates q rows := by
  obtain ⟨ordered, hordered, rfl⟩ := hscan
  exact hordered.perm.subset (List.mem_of_mem_take hr)

theorem nodup_ids_eligible :
    ((scanned.filter (FileRuntimeApiStore.inBucket q)).map ConversationRecord.conversationId).Nodup := by
  obtain ⟨ordered, hordered, rfl⟩ := hscan
  have hall : (ordered.map ConversationRecord.conversationId).Nodup :=
    (hordered.perm.map _).nodup_iff.mpr (nodup_ids_filter hids _)
  exact hall.sublist ((List.filter_sublist.trans (List.take_sublist _ _)).map _)

/-- A scan that reaches the rows of the page lists them. -/
theorem scan_eq_of_agrees (h : ScanAgrees q rows) :
    page q (scanned.filter (FileRuntimeApiStore.inBucket q)) =
      InMemoryRuntimeApiStore.listConversations q rows := by
  have hlistedIds := nodup_ids_filter hids (InMemoryRuntimeApiStore.isListed q)
  have heligibleIds := nodup_ids_eligible hids hscan
  have hcandidate {r : ConversationRecord}
      (hr : r ∈ rows.filter (InMemoryRuntimeApiStore.isListed q)) : r ∈ candidates q rows :=
    List.mem_filter.mpr
      ⟨List.mem_of_mem_filter hr, (candidate_of_isListed (List.mem_filter.mp hr).2).1⟩
  have heligible {r : ConversationRecord}
      (hr : r ∈ page q (rows.filter (InMemoryRuntimeApiStore.isListed q))) :
      r ∈ scanned.filter (FileRuntimeApiStore.inBucket q) := by
    have hlisted := ((mem_page_iff hlistedIds).mp hr).1
    refine List.mem_filter.mpr ⟨?_, (candidate_of_isListed (List.mem_filter.mp hlisted).2).2⟩
    exact (mem_scanned_iff hids (hcandidate hlisted)).mpr (h.reached r hr) scanned hscan
  -- A row that is not reached by a full page of listed rows has few listed rows before it.
  have hfew {r : ConversationRecord}
      (hnewer : (newerThan q (scanned.filter (FileRuntimeApiStore.inBucket q)) r).length < q.limit) :
      (newerThan q (rows.filter (InMemoryRuntimeApiStore.isListed q)) r).length < q.limit := by
    by_contra hmany
    obtain ⟨hfull, hlater⟩ := page_full hlistedIds (not_lt.mp hmany)
    have hsub : page q (rows.filter (InMemoryRuntimeApiStore.isListed q)) ⊆
        newerThan q (scanned.filter (FileRuntimeApiStore.inBucket q)) r := fun m hm =>
      mem_newerThan.mpr ⟨heligible hm, ((mem_page_iff hlistedIds).mp hm).2.1, hlater m hm⟩
    have hnodup : (page q (rows.filter (InMemoryRuntimeApiStore.isListed q))).Nodup :=
      (page_descending hlistedIds).imp fun hlt heq => absurd (heq ▸ hlt) (lt_irrefl _)
    have hle := (List.subperm_of_subset hnodup hsub).length_le
    omega
  apply eq_of_descending (page_descending heligibleIds) (page_descending hlistedIds)
  intro r
  constructor
  · intro hr
    obtain ⟨hmem, hbelow, hnewer⟩ := (mem_page_iff heligibleIds).mp hr
    obtain ⟨hscanned, hbucket⟩ := List.mem_filter.mp hmem
    have hrow := mem_candidates_of_mem_scanned hscan hscanned
    have hlisted : InMemoryRuntimeApiStore.isListed q r = true := by
      by_contra hother
      have hmany := h.displaced r hrow hbucket (Bool.not_eq_true _ ▸ hother) hbelow
        ((exists_scanned_iff hids hrow).mp ⟨scanned, hscan, hscanned⟩)
      exact absurd (hfew hnewer) (not_lt.mpr hmany)
    exact (mem_page_iff hlistedIds).mpr
      ⟨List.mem_filter.mpr ⟨List.mem_of_mem_filter hrow, hlisted⟩, hbelow, hfew hnewer⟩
  · intro hr
    obtain ⟨_, hbelow, hnewer⟩ := (mem_page_iff hlistedIds).mp hr
    refine (mem_page_iff heligibleIds).mpr ⟨heligible hr, hbelow, ?_⟩
    refine lt_of_le_of_lt (length_newerThan_le heligibleIds.of_map fun other hother => ?_) hnewer
    obtain ⟨hmem, hbelow', hlt⟩ := mem_newerThan.mp hother
    obtain ⟨hscanned, hbucket⟩ := List.mem_filter.mp hmem
    have hrow := mem_candidates_of_mem_scanned hscan hscanned
    have hlisted : InMemoryRuntimeApiStore.isListed q other = true := by
      by_contra hother
      have hmany := h.displaced other hrow hbucket (Bool.not_eq_true _ ▸ hother) hbelow'
        ((exists_scanned_iff hids hrow).mp ⟨scanned, hscan, hscanned⟩)
      have hle : (newerThan q (rows.filter (InMemoryRuntimeApiStore.isListed q)) other).length ≤
          (newerThan q (rows.filter (InMemoryRuntimeApiStore.isListed q)) r).length :=
        length_newerThan_le hlistedIds.of_map fun next hnext => by
          obtain ⟨hrecord, hbelow'', hlt'⟩ := mem_newerThan.mp hnext
          exact mem_newerThan.mpr ⟨hrecord, hbelow'', hlt.trans hlt'⟩
      omega
    exact mem_newerThan.mpr
      ⟨List.mem_filter.mpr ⟨List.mem_of_mem_filter hrow, hlisted⟩, hbelow', hlt⟩

end Scan

theorem scan_agrees_iff (hmode : FileRuntimeApiStore.keysetMode q = true) :
    (∀ listed, FileRuntimeApiStore.Lists q rows listed →
      listed = InMemoryRuntimeApiStore.listConversations q rows) ↔ ScanAgrees q rows := by
  have hlistedIds := nodup_ids_filter hids (InMemoryRuntimeApiStore.isListed q)
  simp only [FileRuntimeApiStore.Lists, hmode, if_true]
  constructor
  · intro hsame
    have hpage {scanned : List ConversationRecord}
        (hscan : CatalogIndex.Lists q (FileRuntimeApiStore.scanQuery q) rows scanned) :
        page q (scanned.filter (FileRuntimeApiStore.inBucket q)) =
          page q (rows.filter (InMemoryRuntimeApiStore.isListed q)) :=
      hsame _ ⟨scanned, hscan, rfl⟩
    constructor
    case reached =>
      intro r hr
      have hlisted := ((mem_page_iff hlistedIds).mp hr).1
      have hrow : r ∈ candidates q rows := List.mem_filter.mpr
        ⟨List.mem_of_mem_filter hlisted, (candidate_of_isListed (List.mem_filter.mp hlisted).2).1⟩
      refine (mem_scanned_iff hids hrow).mp fun scanned hscan => ?_
      have hmem : r ∈ page q (scanned.filter (FileRuntimeApiStore.inBucket q)) := by
        rw [hpage hscan]
        exact hr
      exact List.mem_of_mem_filter ((mem_page_iff (nodup_ids_eligible hids hscan)).mp hmem).1
    case displaced =>
      intro a hrow hbucket hother hbelow hearly
      obtain ⟨scanned, hscan, hscanned⟩ := (exists_scanned_iff hids hrow).mpr hearly
      have heligibleIds := nodup_ids_eligible hids hscan
      have hnot : a ∉ page q (scanned.filter (FileRuntimeApiStore.inBucket q)) := by
        intro hmem
        rw [hpage hscan] at hmem
        have hlisted := (List.mem_filter.mp ((mem_page_iff hlistedIds).mp hmem).1).2
        rw [hother] at hlisted
        cases hlisted
      have hmany : q.limit ≤
          (newerThan q (scanned.filter (FileRuntimeApiStore.inBucket q)) a).length := by
        by_contra hfew
        exact hnot ((mem_page_iff heligibleIds).mpr
          ⟨List.mem_filter.mpr ⟨hscanned, hbucket⟩, hbelow, not_le.mp hfew⟩)
      obtain ⟨hfull, hlater⟩ := page_full heligibleIds hmany
      rw [hpage hscan] at hfull hlater
      have hsub : page q (rows.filter (InMemoryRuntimeApiStore.isListed q)) ⊆
          newerThan q (rows.filter (InMemoryRuntimeApiStore.isListed q)) a := fun m hm =>
        mem_newerThan.mpr ⟨((mem_page_iff hlistedIds).mp hm).1, ((mem_page_iff hlistedIds).mp hm).2.1,
          hlater m hm⟩
      have hnodup : (page q (rows.filter (InMemoryRuntimeApiStore.isListed q))).Nodup :=
        (page_descending hlistedIds).imp fun hlt heq => absurd (heq ▸ hlt) (lt_irrefl _)
      exact hfull ▸ (List.subperm_of_subset hnodup hsub).length_le
  · rintro h listed ⟨scanned, hscan, rfl⟩
    exact scan_eq_of_agrees hids hscan h

theorem listing_agrees_iff :
    (∀ listed, FileRuntimeApiStore.Lists q rows listed →
      listed = InMemoryRuntimeApiStore.listConversations q rows) ↔ Agreeable q rows := by
  unfold Agreeable
  cases hmode : FileRuntimeApiStore.keysetMode q with
  | true => exact scan_agrees_iff hids hmode
  | false => exact firstPage_agrees_iff hids hmode

end Agreement

/-! ### All pages -/

/-- The same listing, from the start or after a row. -/
def ListConversations.atCursor (q : ListConversations) : Option ConversationRecord → ListConversations
  | none => { q with beforeUpdatedAt := none, beforeConversationId := none }
  | some last =>
      { q with
        beforeUpdatedAt := some last.updatedAt
        beforeConversationId := some last.conversationId }

theorem boundary_atCursor (q : ListConversations) (cursor : Option ConversationRecord) :
    (q.atCursor cursor).boundary = cursor.map ConversationRecord.key := by
  cases cursor with
  | none => rfl
  | some last => rfl

theorem isListed_atCursor (q : ListConversations) (cursor : Option ConversationRecord) :
    InMemoryRuntimeApiStore.isListed (q.atCursor cursor) = InMemoryRuntimeApiStore.isListed q := by
  cases cursor with
  | none => rfl
  | some last => rfl

theorem limit_atCursor (q : ListConversations) (cursor : Option ConversationRecord) :
    (q.atCursor cursor).limit = q.limit := by
  cases cursor with
  | none => rfl
  | some last => rfl

/-- The pages from the first on end, and show every conversation that is listed exactly once. -/
structure Enumerates (q : ListConversations) (rows : List ConversationRecord)
    (lists : ListConversations → List ConversationRecord → Prop) : Prop where
  ends : ∃ pages, Keyset.Followed (fun cursor page => lists (q.atCursor cursor) page) q.limit none pages
  once : ∀ pages,
    Keyset.Followed (fun cursor page => lists (q.atCursor cursor) page) q.limit none pages →
      pages.flatten.Nodup ∧
        ∀ r, r ∈ pages.flatten ↔ r ∈ rows ∧ InMemoryRuntimeApiStore.isListed q r = true

/-- A store that lists as the one in memory does shows everything once. -/
theorem enumerates_of_agrees (hids : (rows.map ConversationRecord.conversationId).Nodup)
    (hlimit : 0 < q.limit) {lists : ListConversations → List ConversationRecord → Prop}
    (hlists : ∀ cursor, (∀ r ∈ cursor, r ∈ rows) → ∀ listed,
      lists (q.atCursor cursor) listed ↔
        listed = InMemoryRuntimeApiStore.listConversations (q.atCursor cursor) rows) :
    Enumerates q rows lists := by
  have hdescending := sorted_descending (nodup_ids_filter hids (InMemoryRuntimeApiStore.isListed q))
  have hpage (cursor : Option ConversationRecord) :
      InMemoryRuntimeApiStore.listConversations (q.atCursor cursor) rows =
        (Keyset.after ConversationRecord.key
          (sorted (rows.filter (InMemoryRuntimeApiStore.isListed q)))
          (cursor.map ConversationRecord.key)).take q.limit := by
    rw [InMemoryRuntimeApiStore.listConversations, page, boundary_atCursor, isListed_atCursor,
      limit_atCursor]
  have hrows {cursor : Option ConversationRecord}
      (hcursor : ∀ r ∈ cursor, r ∈ sorted (rows.filter (InMemoryRuntimeApiStore.isListed q))) :
      ∀ r ∈ cursor, r ∈ rows := fun r hr => List.mem_of_mem_filter (mem_sorted.mp (hcursor r hr))
  constructor
  case ends =>
    refine Keyset.exists_followed hdescending hlimit (fun cursor hcursor => ?_) none
      fun _ h => absurd h (Option.not_mem_none _)
    rw [hlists cursor (hrows hcursor), hpage]
  case once =>
    intro pages hpages
    have hflatten : pages.flatten = sorted (rows.filter (InMemoryRuntimeApiStore.isListed q)) := by
      refine Keyset.flatten_of_followed hdescending (fun cursor listed hcursor hlisted => ?_)
        (fun _ h => absurd h (Option.not_mem_none _)) hpages
      rw [(hlists cursor (hrows hcursor) listed).mp hlisted, hpage]
    rw [hflatten]
    constructor
    · exact (sorted_perm _).nodup_iff.mpr (nodup_ids_filter hids _).of_map
    · intro r
      rw [mem_sorted, List.mem_filter]

theorem exists_lists (q : ListConversations) (rows : List ConversationRecord) :
    ∃ listed, FileRuntimeApiStore.Lists q rows listed := by
  unfold FileRuntimeApiStore.Lists
  split
  · obtain ⟨ordered, hordered, _⟩ := Keyset.exists_arrangement ConversationRecord.updatedText
      (rows.filter (CatalogIndex.isSelected q (FileRuntimeApiStore.scanQuery q)))
    exact ⟨_, _, ⟨ordered, hordered, rfl⟩, rfl⟩
  · obtain ⟨ordered, hordered, _⟩ := Keyset.exists_arrangement ConversationRecord.updatedText
      (rows.filter (CatalogIndex.isSelected q (FileRuntimeApiStore.firstPageQuery q)))
    exact ⟨_, ordered, hordered, rfl⟩

/-- The file store lists what the store in memory lists, in every order of ties, exactly when the
request is agreeable. The pages of the store in memory show every listed conversation once, and so
do those of the file store where each request for one is agreeable. -/
theorem conversation_listing_agrees_iff (t : ConversationTable) :
    (∀ q, (∀ listed, FileRuntimeApiStore.Lists q t.rows listed →
        listed = InMemoryRuntimeApiStore.listConversations q t.rows) ↔ Agreeable q t.rows) ∧
      (∀ q : ListConversations, 0 < q.limit → Enumerates q t.rows fun q listed =>
        listed = InMemoryRuntimeApiStore.listConversations q t.rows) ∧
      ∀ q : ListConversations, 0 < q.limit →
        (∀ cursor, (∀ r ∈ cursor, r ∈ t.rows) → Agreeable (q.atCursor cursor) t.rows) →
        Enumerates q t.rows fun q listed => FileRuntimeApiStore.Lists q t.rows listed := by
  refine ⟨fun q => listing_agrees_iff t.nodup_keys, ?_, ?_⟩
  · intro q hlimit
    exact enumerates_of_agrees t.nodup_keys hlimit fun _ _ _ => Iff.rfl
  · intro q hlimit hagreeable
    refine enumerates_of_agrees t.nodup_keys hlimit fun cursor hcursor listed => ?_
    have hsame := (listing_agrees_iff t.nodup_keys).mpr (hagreeable cursor hcursor)
    constructor
    · exact hsame listed
    · rintro rfl
      obtain ⟨listed, hlisted⟩ := exists_lists (q.atCursor cursor) t.rows
      rw [← hsame listed hlisted]
      exact hlisted

namespace Sample

/-- Noon of a day, and some microseconds. -/
def noon (micros : Nat) (h : micros < 1000000 := by decide) : Datetime where
  date := ⟨738000, by decide, by decide⟩
  micros := 43200000000 + micros
  offset := 0
  micros_lt := by
    unfold dayMicros
    omega

def conversation (conversationId : String) (updatedAt : Datetime) : ConversationRecord where
  conversationId := conversationId
  orgId := "org"
  userId := "user"
  status := .active
  updatedAt := updatedAt
  archivedAt := none
  projectId := none
  deletedAt := none
  pinned := false

/-- Two conversations of one second. -/
def conversations (first second : Datetime) : ConversationTable :=
  (Table.empty.put (conversation "c1" first)).put (conversation "c2" second)

def query : ListConversations where
  orgId := "org"
  userId := "user"
  limit := 1

theorem sorted_conversations (first second : Datetime) (h : first.instant < second.instant) :
    sorted (conversations first second).rows =
      [conversation "c2" second, conversation "c1" first] := by
  have hrows : (conversations first second).rows =
      [conversation "c1" first, conversation "c2" second] := rfl
  have hless : (conversation "c1" first).key < (conversation "c2" second).key :=
    Prod.Lex.left _ _ h
  rw [hrows, sorted, List.insertionSort_cons, List.insertionSort_cons, List.insertionSort_nil,
    List.orderedInsert_nil, List.orderedInsert_cons, if_neg (not_le.mpr hless), List.orderedInsert_nil]

theorem listed_conversations (first second : Datetime) :
    (conversations first second).rows.filter (InMemoryRuntimeApiStore.isListed query) =
      (conversations first second).rows := rfl

end Sample

/-- A store of few conversations, of which a scan goes through no others, is agreeable. -/
theorem scanAgrees_of_few (hfew : rows.length < FileRuntimeApiStore.bucketScanCeiling)
    (hlisted : ∀ r ∈ rows, InMemoryRuntimeApiStore.isListed q r = true) : ScanAgrees q rows where
  reached _ _ := lt_of_le_of_lt
    ((List.length_filter_le _ _).trans (List.length_filter_le _ _)) hfew
  displaced a hrow _ hother _ _ := by
    rw [hlisted a (List.mem_of_mem_filter hrow)] at hother
    cases hother

/-- Two conversations whose texts are in order are each shown once, page by page. -/
theorem conversation_listing_agrees_iff_sample :
    Enumerates Sample.query (Sample.conversations (Sample.noon 1) (Sample.noon 2)).rows
      fun q listed => FileRuntimeApiStore.Lists q
        (Sample.conversations (Sample.noon 1) (Sample.noon 2)).rows listed := by
  apply (conversation_listing_agrees_iff _).2.2 Sample.query Nat.one_pos
  intro cursor _
  cases cursor with
  | none =>
      intro before a after hsorted _ b hb
      change sorted ((Sample.conversations (Sample.noon 1) (Sample.noon 2)).rows.filter
        (InMemoryRuntimeApiStore.isListed Sample.query)) = _ at hsorted
      rw [Sample.listed_conversations, Sample.sorted_conversations _ _ (by decide)] at hsorted
      have htexts : [Sample.conversation "c2" (Sample.noon 2),
          Sample.conversation "c1" (Sample.noon 1)].Pairwise
            fun a b => b.updatedText < a.updatedText := by
        decide
      rw [hsorted] at htexts
      exact List.rel_of_pairwise_cons (List.pairwise_append.mp htexts).2.1 hb
  | some last =>
      refine scanAgrees_of_few (by decide) ?_
      rw [isListed_atCursor]
      exact List.filter_eq_self.mp (Sample.listed_conversations _ _)

/-- Of two conversations of one second the index puts the one without a fraction first. -/
theorem whole_second_listed_first :
    ¬ ∀ (t : ConversationTable) (q : ListConversations) (listed : List ConversationRecord),
      FileRuntimeApiStore.Lists q t.rows listed →
        listed = InMemoryRuntimeApiStore.listConversations q t.rows := by
  intro hclaim
  have hagrees := (listing_agrees_iff (Sample.conversations (Sample.noon 0)
    (Sample.noon 500000)).nodup_keys).mp (hclaim _ Sample.query)
  have hfirst : (Sample.conversation "c1" (Sample.noon 0)).updatedText <
      (Sample.conversation "c2" (Sample.noon 500000)).updatedText := by
    apply hagrees [] _ [Sample.conversation "c1" (Sample.noon 0)] _ Nat.one_pos _ List.mem_cons_self
    rw [Sample.listed_conversations, Sample.sorted_conversations _ _ (by decide), List.nil_append]
  have hlater : ¬ (Sample.conversation "c1" (Sample.noon 0)).updatedText <
      (Sample.conversation "c2" (Sample.noon 500000)).updatedText := by
    decide
  exact hlater hfirst

end CopilotRuntime.Conversations
