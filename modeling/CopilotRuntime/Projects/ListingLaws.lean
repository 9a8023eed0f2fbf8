import CopilotRuntime.Projects.Listing

/-!
# What a listing shows

A caller who is no admin should be shown the projects they can read and no
others, each once over all the pages. The listing keeps to that when it is
narrowed to an owner. Without an owner it shows every project of the tenant that
passes the filters, and repeats projects of the caller on the last page.
-/

namespace CopilotRuntime.Projects

open Foundation

/-! ### Reading a project -/

section Reading
variable (t : ProjectTables) (caller : ProjectCaller)

/-- A project of the caller's tenant that is not deleted and is theirs, or has them as a member. -/
def Readable (record : ProjectRecord) : Prop :=
  record.tenantId = caller.tenantId ∧ record.deletedAt = none ∧
    (record.ownerUserId = caller.userId ∨ isMember t caller record.id = true)

instance (record : ProjectRecord) : Decidable (Readable t caller record) :=
  inferInstanceAs (Decidable (_ ∧ _))

variable {t caller} {record : ProjectRecord}

theorem viewerRole_eq_none_iff (htenant : record.tenantId = caller.tenantId) :
    viewerRole t record caller.userId = none ↔
      ¬(record.ownerUserId = caller.userId ∨ isMember t caller record.id = true) := by
  rw [viewerRole, isMember, ← htenant, not_or]
  by_cases howner : record.ownerUserId = caller.userId
  · simp [howner]
  · simp [howner]

/-- A project is got exactly by the callers who can read it, and as they see it. -/
theorem getProject_eq_ok_iff (hadmin : isAdmin caller.roles = false)
    (hmem : record ∈ t.projects.rows) (row : ProjectView) :
    getProject t caller record.id = .ok row ↔
      Readable t caller record ∧ row = view t caller record := by
  have hfind : t.projects.find? record.id = some record := Table.mem_rows_iff.mp hmem
  by_cases hshown : record.tenantId = caller.tenantId ∧ record.deletedAt = none
  · have hget : t.getProject caller.tenantId record.id false = some record := by
      simp [ProjectTables.getProject, hfind, hshown.1, hshown.2]
    by_cases hrole : viewerRole t record caller.userId = none
    · have hread : ¬Readable t caller record := fun h =>
        (viewerRole_eq_none_iff hshown.1).mp hrole h.2.2
      simp [getProject, requireRead, hget, hrole, hadmin, hread, bind, Except.bind]
    · have hread : Readable t caller record :=
        ⟨hshown.1, hshown.2, not_not.mp fun h => hrole ((viewerRole_eq_none_iff hshown.1).mpr h)⟩
      simp only [getProject, requireRead, hget, hrole, false_and, if_false, bind, Except.bind,
        pure, Except.pure, Except.ok.injEq, hread, true_and]
      exact eq_comm
  · have hget : t.getProject caller.tenantId record.id false = none := by
      simpa [ProjectTables.getProject, hfind] using hshown
    have hread : ¬Readable t caller record := fun h => hshown ⟨h.1, h.2.1⟩
    simp [getProject, requireRead, hget, hread, bind, Except.bind]

end Reading

/-! ### The candidates of a query -/

section Candidates
variable {rules : TextRules} {t : ProjectTables} {tenantId sort : String} {filter : ProjectFilter}

theorem sorted_perm (records : List ProjectRecord) : (sorted rules sort records).Perm records := by
  unfold sorted
  split
  · exact List.perm_insertionSort _ _
  · exact List.perm_insertionSort _ _

open InMemoryProjectsStore

theorem mem_candidates_iff {record : ProjectRecord} :
    record ∈ candidates rules t tenantId filter sort ↔
      record ∈ t.projects.rows ∧ isCandidate rules t tenantId filter record = true := by
  rw [candidates, (sorted_perm _).mem_iff, List.mem_filter]

theorem nodup_candidates : (candidates rules t tenantId filter sort).Nodup :=
  (sorted_perm _).nodup_iff.mpr (t.projects.nodup_rows.filter _)

/-- Projects with one id are one project. -/
theorem id_inj_of_mem_rows {a b : ProjectRecord} (ha : a ∈ t.projects.rows)
    (hb : b ∈ t.projects.rows) (hid : a.id = b.id) : a = b :=
  List.inj_on_of_nodup_map t.projects.nodup_keys ha hb hid

theorem tenant_of_isCandidate {record : ProjectRecord}
    (h : isCandidate rules t tenantId filter record = true) :
    record.tenantId = tenantId ∧ record.deletedAt = none := by
  simp only [isCandidate, Bool.and_eq_true, decide_eq_true_eq, Option.isNone_iff_eq_none] at h
  exact h.1.1.1.1.1

/-- A membership row of a tenant is the one that is looked up. -/
theorem hasMember_eq {projectId userId : String} :
    hasMember t tenantId projectId userId = (t.getMembership tenantId projectId userId).isSome := by
  rw [Bool.eq_iff_iff, hasMember, List.any_eq_true, ProjectTables.getMembership]
  simp only [Bool.and_eq_true, decide_eq_true_eq, Option.isSome_filter, Option.any_eq_true]
  constructor
  · rintro ⟨m, hmem, ⟨htenant, huser⟩, hproject⟩
    refine ⟨m, ?_, htenant⟩
    rw [← hproject, ← huser]
    exact Table.mem_rows_iff.mp hmem
  · rintro ⟨m, hfind, htenant⟩
    have hkey : m.key = (projectId, userId) := Table.key_of_find? hfind
    refine ⟨m, Table.mem_rows_iff.mpr ?_, ⟨htenant, congrArg Prod.snd hkey⟩,
      congrArg Prod.fst hkey⟩
    rw [hkey]
    exact hfind

end Candidates

/-! ### The pages of a listing -/

section Pages
variable (rules : TextRules) (t : ProjectTables) (caller : ProjectCaller) (query : ProjectQuery)

/-- All the projects of the tenant that pass the filters of a query, in order. -/
def listed : List ProjectRecord :=
  InMemoryProjectsStore.candidates rules t caller.tenantId (query.filter caller none) query.sort

/-- What a caller is shown from an offset on. -/
def shownAt (start : Nat) : List ProjectRecord :=
  shownOf rules t caller query (Paging.slice (listed rules t caller query) query.limit start)

variable {rules t caller query}

theorem nodup_listed : (listed rules t caller query).Nodup := nodup_candidates

@[simp] theorem decodeCursor_none : decodeCursor rules none = 0 := rfl

theorem decodeCursor_toString (n : Nat) : decodeCursor rules (some (toString n)) = n := by
  rw [decodeCursor, rules.readInt_toString]
  rfl

/-- A page shows what lies at its offset, with the cursor of the next offset if one is left. -/
theorem listProjects_eq (cursor : Option String) :
    listProjects rules t caller query none cursor =
      .ok ((shownAt rules t caller query (decodeCursor rules cursor)).map (view t caller),
        if decodeCursor rules cursor + query.limit < (listed rules t caller query).length then
          some (toString (decodeCursor rules cursor + query.limit))
        else none) := by
  simp [listProjects, InMemoryProjectsStore.listProjects, shownAt, listed]

/-- Following the cursors from an offset shows the pages at the offsets from there. -/
theorem followed_iff {cursor : Option String} {pages : List (List ProjectView)} :
    Followed rules t caller query cursor pages ↔
      pages = (Paging.offsets query.limit (listed rules t caller query).length
        (decodeCursor rules cursor)).map fun start =>
          (shownAt rules t caller query start).map (view t caller) := by
  constructor
  · intro h
    induction h with
    | last shown =>
        rw [listProjects_eq] at shown
        split at shown
        · cases shown
        · next hlast =>
            cases shown
            rw [Paging.offsets_of_le (Nat.not_lt.mp hlast), List.map_singleton]
    | next shown rest ih =>
        rw [listProjects_eq] at shown
        split at shown
        · next hmore =>
            cases shown
            rw [decodeCursor_toString] at ih
            rw [Paging.offsets_of_lt query.limit_pos hmore, List.map_cons, ih]
        · cases shown
  · rintro rfl
    generalize hstart : decodeCursor rules cursor = start
    induction start using Paging.offsets.induct query.limit (listed rules t caller query).length
      generalizing cursor with
    | case1 start hmore ih =>
        rw [Paging.offsets_of_lt hmore.1 hmore.2, List.map_cons]
        refine .next ?_ (ih (decodeCursor_toString (start + query.limit)))
        rw [listProjects_eq, hstart, if_pos hmore.2]
    | case2 start hlast =>
        have hle : ¬start + query.limit < (listed rules t caller query).length := fun h =>
          hlast ⟨query.limit_pos, h⟩
        rw [Paging.offsets_of_le (Nat.not_lt.mp hle), List.map_singleton]
        refine .last ?_
        rw [listProjects_eq, hstart, if_neg hle]

/-- The page at the last offset, and the first projects the caller is a member of. -/
def lastPage (rules : TextRules) (t : ProjectTables) (caller : ProjectCaller)
    (query : ProjectQuery) : List ProjectRecord :=
  Paging.slice (listed rules t caller query) query.limit
    (Paging.lastOffset query.limit (listed rules t caller query).length)

/-- The pages shown one after another show the candidates of their offsets. -/
theorem map_record_flatten (starts : List Nat) :
    ((starts.map fun start => (shownAt rules t caller query start).map (view t caller)).flatten.map
        (·.record)) = starts.flatMap (shownAt rules t caller query) := by
  rw [List.map_flatten, List.map_map, ← List.flatMap_def]
  refine List.flatMap_congr fun start _ => ?_
  rw [Function.comp_apply, List.map_map]
  exact List.map_id _

end Pages

/-! ### What callers who are no admins are shown -/

/-- Every row on any page is what the caller gets when asking for its project. -/
def ShowsReadableOnly (rules : TextRules) (t : ProjectTables) (caller : ProjectCaller)
    (query : ProjectQuery) : Prop :=
  ∀ cursor rows nextCursor,
    listProjects rules t caller query none cursor = .ok (rows, nextCursor) →
      ∀ row ∈ rows, getProject t caller row.record.id = .ok row

/-- The pages from the first to the last show each project that matches and can be got once. -/
def ShowsReadableOnce (rules : TextRules) (t : ProjectTables) (caller : ProjectCaller)
    (query : ProjectQuery) : Prop :=
  ∃ pages, Followed rules t caller query none pages ∧
    ∀ record ∈ t.projects.rows,
      InMemoryProjectsStore.isCandidate rules t caller.tenantId (query.filter caller none) record →
      (∃ row, getProject t caller record.id = .ok row) →
        (pages.flatten.map (·.record)).count record = 1

section Shown
variable {rules : TextRules} {t : ProjectTables} {caller : ProjectCaller} {query : ProjectQuery}

theorem shownAt_of_owner (hadmin : isAdmin caller.roles = false)
    (howner : query.ownerUserId.isSome = true) (start : Nat) :
    shownAt rules t caller query start =
      (Paging.slice (listed rules t caller query) query.limit start).filter fun record =>
        Readable t caller record := by
  have hnone : query.ownerUserId.isNone = false := by
    rw [← Option.not_isSome, howner]
    rfl
  rw [shownAt, shownOf, hadmin, hnone]
  refine List.filter_congr fun record hmem => ?_
  have hcand := (mem_candidates_iff.mp (Paging.mem_of_mem_slice hmem)).2
  have htenant := tenant_of_isCandidate hcand
  simp [Readable, htenant.1, htenant.2]

theorem shownAt_of_no_owner (hadmin : isAdmin caller.roles = false)
    (howner : query.ownerUserId = none) (start : Nat) :
    shownAt rules t caller query start =
      joinMemberPage rules t caller query
        (Paging.slice (listed rules t caller query) query.limit start) := by
  simp [shownAt, shownOf, hadmin, howner]

/-- A project the caller is a member of is one that matches, and is readable. -/
theorem of_mem_memberPage {record : ProjectRecord} (howner : query.ownerUserId = none)
    (h : record ∈ memberPage rules t caller query) :
    record ∈ listed rules t caller query ∧ Readable t caller record := by
  obtain ⟨hrow, hcand⟩ := mem_candidates_iff.mp (Paging.mem_of_mem_slice h)
  obtain ⟨htenant, hdeleted⟩ := tenant_of_isCandidate hcand
  simp only [InMemoryProjectsStore.isCandidate, ProjectQuery.filter, Option.all_some,
    Option.all_none, Bool.and_eq_true, Bool.and_true] at hcand
  refine ⟨mem_candidates_iff.mpr ⟨hrow, ?_⟩, htenant, hdeleted, .inr ?_⟩
  · simp only [InMemoryProjectsStore.isCandidate, ProjectQuery.filter, howner, Option.all_none,
      Bool.and_eq_true, Bool.and_true]
    exact ⟨⟨⟨hcand.1.1.1.1, hcand.1.1.2⟩, hcand.1.2⟩, hcand.2⟩
  · rw [isMember, ← hasMember_eq]
    exact hcand.1.1.1.2

theorem joinMemberPage_eq {page : List ProjectRecord} (h : page.length ≤ query.limit) :
    joinMemberPage rules t caller query page =
      page ++ (memberOnly rules t caller query page).take (query.limit - page.length) := by
  rw [joinMemberPage, List.take_append, List.take_of_length_le h]

/-- Nothing is joined to a full page, or to one that holds the caller's projects. -/
theorem take_memberOnly_eq_nil_iff {page : List ProjectRecord}
    (hpage : ∀ record ∈ page, record ∈ t.projects.rows) (hle : page.length ≤ query.limit)
    (howner : query.ownerUserId = none) :
    (memberOnly rules t caller query page).take (query.limit - page.length) = [] ↔
      page.length = query.limit ∨
        ∀ record ∈ memberPage rules t caller query,
          record.ownerUserId ≠ caller.userId → record ∈ page := by
  rw [List.take_eq_nil_iff, Nat.sub_eq_zero_iff_le]
  refine or_congr ⟨fun h => Nat.le_antisymm hle h, fun h => h.ge⟩ ?_
  rw [memberOnly, List.filter_eq_nil_iff]
  refine forall₂_congr fun record hmem => ?_
  have hrow := (mem_candidates_iff.mp (of_mem_memberPage howner hmem).1).1
  have hids : (page.map (·.id)).contains record.id = true ↔ record ∈ page := by
    rw [List.contains_iff_mem, List.mem_map]
    constructor
    · rintro ⟨other, hother, hid⟩
      rwa [← id_inj_of_mem_rows (hpage other hother) hrow hid]
    · exact fun h => ⟨record, h, rfl⟩
  rw [Bool.and_eq_true, Bool.not_eq_true', decide_eq_true_eq, ← Bool.not_eq_true, hids]
  tauto

theorem mem_rows_of_mem_slice {start : Nat} :
    ∀ record ∈ Paging.slice (listed rules t caller query) query.limit start,
      record ∈ t.projects.rows :=
  fun _ h => (mem_candidates_iff.mp (Paging.mem_of_mem_slice h)).1

variable (hadmin : isAdmin caller.roles = false)
include hadmin

/-- Narrowed to an owner, the pages show the readable candidates. -/
theorem shown_of_owner (howner : query.ownerUserId.isSome = true) :
    (Paging.offsets query.limit (listed rules t caller query).length 0).flatMap
        (shownAt rules t caller query) =
      (listed rules t caller query).filter fun record => Readable t caller record := by
  rw [List.flatMap_congr fun start _ => shownAt_of_owner hadmin howner start,
    ← List.filter_flatMap, Paging.flatMap_slice_offsets _ query.limit_pos, List.drop_zero]

/-- Without an owner the pages show all the candidates, and what the last page is joined with. -/
theorem shown_of_no_owner (howner : query.ownerUserId = none) :
    (Paging.offsets query.limit (listed rules t caller query).length 0).flatMap
        (shownAt rules t caller query) =
      listed rules t caller query ++
        (memberOnly rules t caller query (lastPage rules t caller query)).take
          (query.limit - (lastPage rules t caller query).length) := by
  obtain ⟨before, hoffsets, hfull⟩ := Paging.offsets_eq (listed rules t caller query).length
    query.limit_pos 0 (.inl rfl)
  have hslices := Paging.flatMap_slice_offsets (listed rules t caller query) query.limit_pos 0
  rw [Nat.zero_mul] at hoffsets
  rw [hoffsets, List.flatMap_append, List.flatMap_singleton, List.drop_zero] at hslices
  have hbefore : before.flatMap (shownAt rules t caller query) =
      before.flatMap (Paging.slice (listed rules t caller query) query.limit) := by
    refine List.flatMap_congr fun start hmem => ?_
    have hlen := Paging.length_slice_of_lt (hfull start hmem)
    rw [shownAt_of_no_owner hadmin howner, joinMemberPage_eq hlen.le, hlen, Nat.sub_self,
      List.take_zero, List.append_nil]
  rw [hoffsets, List.flatMap_append, List.flatMap_singleton, hbefore,
    shownAt_of_no_owner hadmin howner, joinMemberPage_eq (Paging.length_slice_le _ _ _),
    ← List.append_assoc, hslices, lastPage]

/-- Showing readable projects only means that the candidates a page is cut from are readable. -/
theorem showsReadableOnly_of_shownAt
    (h : ∀ start, ∀ record ∈ shownAt rules t caller query start,
      record ∈ t.projects.rows ∧ Readable t caller record) :
    ShowsReadableOnly rules t caller query := by
  intro cursor rows nextCursor hlist row hrow
  rw [listProjects_eq] at hlist
  obtain ⟨rfl, -⟩ := Prod.mk.inj (Except.ok.inj hlist)
  obtain ⟨record, hmem, rfl⟩ := List.mem_map.mp hrow
  obtain ⟨hrows, hread⟩ := h _ record hmem
  exact (getProject_eq_ok_iff hadmin hrows _).mpr ⟨hread, rfl⟩

theorem readable_of_mem_shownAt (h : ShowsReadableOnly rules t caller query) (start : Nat)
    {record : ProjectRecord} (hmem : record ∈ shownAt rules t caller query start)
    (hrow : record ∈ t.projects.rows) : Readable t caller record := by
  have hlist : listProjects rules t caller query none (some (toString start)) = _ :=
    listProjects_eq _
  rw [decodeCursor_toString] at hlist
  have hget := h _ _ _ hlist _ (List.mem_map_of_mem hmem)
  exact ((getProject_eq_ok_iff hadmin hrow _).mp hget).1

/-- Showing each project once is a matter of counting what all the pages show. -/
theorem showsReadableOnce_iff :
    ShowsReadableOnce rules t caller query ↔
      ∀ record ∈ listed rules t caller query, Readable t caller record →
        ((Paging.offsets query.limit (listed rules t caller query).length 0).flatMap
          (shownAt rules t caller query)).count record = 1 := by
  have hcount : ∀ pages, Followed rules t caller query none pages →
      pages.flatten.map (·.record) =
        (Paging.offsets query.limit (listed rules t caller query).length 0).flatMap
          (shownAt rules t caller query) := by
    intro pages hpages
    rw [followed_iff.mp hpages, map_record_flatten, decodeCursor_none]
  constructor
  · rintro ⟨pages, hpages, h⟩ record hmem hread
    obtain ⟨hrow, hcand⟩ := mem_candidates_iff.mp hmem
    rw [← hcount pages hpages]
    exact h record hrow hcand ⟨_, (getProject_eq_ok_iff hadmin hrow _).mpr ⟨hread, rfl⟩⟩
  · intro h
    refine ⟨_, followed_iff.mpr rfl, ?_⟩
    rintro record hrow hcand ⟨row, hget⟩
    rw [hcount _ (followed_iff.mpr rfl)]
    exact h record (mem_candidates_iff.mpr ⟨hrow, hcand⟩)
      ((getProject_eq_ok_iff hadmin hrow row).mp hget).1

/-- Narrowed to an owner, a listing shows what the caller can read. -/
theorem lists_readable_of_owner (howner : query.ownerUserId.isSome = true) :
    ShowsReadableOnly rules t caller query ∧ ShowsReadableOnce rules t caller query := by
  constructor
  · refine showsReadableOnly_of_shownAt hadmin fun start record hmem => ?_
    rw [shownAt_of_owner hadmin howner, List.mem_filter] at hmem
    exact ⟨mem_rows_of_mem_slice record hmem.1, of_decide_eq_true hmem.2⟩
  · rw [showsReadableOnce_iff hadmin, shown_of_owner hadmin howner]
    intro record hmem hread
    exact List.count_eq_one_of_mem (nodup_listed.filter _)
      (List.mem_filter.mpr ⟨hmem, decide_eq_true hread⟩)

/-- Without an owner a listing shows readable projects only if all candidates are readable. -/
theorem showsReadableOnly_iff (howner : query.ownerUserId = none) :
    ShowsReadableOnly rules t caller query ↔
      ∀ record ∈ listed rules t caller query, Readable t caller record := by
  constructor
  · intro h record hmem
    obtain ⟨start, hslice⟩ := Paging.exists_mem_slice query.limit_pos hmem
    refine readable_of_mem_shownAt hadmin h start ?_ (mem_candidates_iff.mp hmem).1
    rw [shownAt_of_no_owner hadmin howner, joinMemberPage_eq (Paging.length_slice_le _ _ _)]
    exact List.mem_append_left _ hslice
  · refine fun h => showsReadableOnly_of_shownAt hadmin fun start record hmem => ?_
    have hlisted : record ∈ listed rules t caller query := by
      rw [shownAt_of_no_owner hadmin howner, joinMemberPage_eq (Paging.length_slice_le _ _ _),
        List.mem_append] at hmem
      obtain hslice | hmember := hmem
      · exact Paging.mem_of_mem_slice hslice
      · exact (of_mem_memberPage howner (List.mem_of_mem_filter (List.mem_of_mem_take hmember))).1
    exact ⟨(mem_candidates_iff.mp hlisted).1, h record hlisted⟩

/-- Without an owner each project is shown once only if nothing is joined to the last page. -/
theorem showsReadableOnce_iff_of_no_owner (howner : query.ownerUserId = none) :
    ShowsReadableOnce rules t caller query ↔
      (lastPage rules t caller query).length = query.limit ∨
        ∀ record ∈ memberPage rules t caller query,
          record.ownerUserId ≠ caller.userId → record ∈ lastPage rules t caller query := by
  have hle : (lastPage rules t caller query).length ≤ query.limit := Paging.length_slice_le _ _ _
  have hrows : ∀ record ∈ lastPage rules t caller query, record ∈ t.projects.rows :=
    mem_rows_of_mem_slice
  rw [showsReadableOnce_iff hadmin, shown_of_no_owner hadmin howner,
    ← take_memberOnly_eq_nil_iff hrows hle howner]
  constructor
  · intro h
    rw [List.eq_nil_iff_forall_not_mem]
    intro record hextra
    obtain ⟨hlisted, hread⟩ :=
      of_mem_memberPage howner (List.mem_of_mem_filter (List.mem_of_mem_take hextra))
    have hone := h record hlisted hread
    rw [List.count_append, List.count_eq_one_of_mem nodup_listed hlisted] at hone
    have hpos := List.count_pos_iff.mpr hextra
    omega
  · intro h record hmem _
    rw [h, List.append_nil]
    exact List.count_eq_one_of_mem nodup_listed hmem

end Shown

/-! ### Exactly the readable projects -/

/-- A caller who is no admin is shown exactly the projects they can read that match when the query
names an owner, or else when they can read all that match and the last page is full or already holds
the first of the projects they are a member of. -/
theorem project_listing_exact_iff (rules : TextRules) (t : ProjectTables) (caller : ProjectCaller)
    (query : ProjectQuery) (hadmin : isAdmin caller.roles = false) :
    ShowsReadableOnly rules t caller query ∧ ShowsReadableOnce rules t caller query ↔
      query.ownerUserId.isSome = true ∨
        (∀ record ∈ listed rules t caller query, Readable t caller record) ∧
          ((lastPage rules t caller query).length = query.limit ∨
            ∀ record ∈ memberPage rules t caller query,
              record.ownerUserId ≠ caller.userId → record ∈ lastPage rules t caller query) := by
  cases howner : query.ownerUserId with
  | none =>
      rw [showsReadableOnly_iff hadmin howner, showsReadableOnce_iff_of_no_owner hadmin howner,
        Option.isSome_none]
      simp only [Bool.false_eq_true, false_or]
  | some owner =>
      have hsome : query.ownerUserId.isSome = true := by rw [howner]; rfl
      exact iff_of_true (lists_readable_of_owner hadmin hsome) (.inl rfl)

/-! ### A listing that leaks -/

/-- Lower case of the Latin letters, and numbers read in decimal without a sign. -/
def asciiRules : TextRules where
  lower := Text.lower
  readInt s := (Text.decimal? s.toList).map Int.ofNat
  readInt_toString n := by
    rw [Nat.toString_eq_repr, Nat.repr, String.toList_ofList, Text.decimal?_toDigits]
    rfl

def sampleProject : ProjectRecord where
  id := "project"
  tenantId := "tenant"
  ownerUserId := "alice"
  name := "Plans"
  description := ""
  iconEmoji := "📁"
  colorHue := 210
  status := .active
  archivedAt := none
  lastActivityAt := none
  createdAt := 0
  updatedAt := 0
  deletedAt := none
  defaultConnectorAllowlist := none

/-- A project of one user, with no members. -/
def sampleTables : ProjectTables := ProjectTables.empty.insertProject sampleProject

def sampleQuery : ProjectQuery := ⟨none, none, none, false, "updated_at:desc", 50, by decide⟩

def stranger : ProjectCaller := ⟨"tenant", "mallory", []⟩

theorem project_listing_exact_iff_sample :
    isAdmin stranger.roles = false ∧
      (ShowsReadableOnly asciiRules sampleTables stranger sampleQuery ∧
          ShowsReadableOnce asciiRules sampleTables stranger sampleQuery ↔
        sampleQuery.ownerUserId.isSome = true ∨
          (∀ record ∈ listed asciiRules sampleTables stranger sampleQuery,
            Readable sampleTables stranger record) ∧
          ((lastPage asciiRules sampleTables stranger sampleQuery).length = sampleQuery.limit ∨
            ∀ record ∈ memberPage asciiRules sampleTables stranger sampleQuery,
              record.ownerUserId ≠ stranger.userId →
                record ∈ lastPage asciiRules sampleTables stranger sampleQuery)) :=
  ⟨by decide, project_listing_exact_iff asciiRules sampleTables stranger sampleQuery (by decide)⟩

/-- A user who is no member and cannot get the project is shown it in a listing. -/
theorem listing_shows_unreadable_project :
    isAdmin stranger.roles = false ∧
      ¬(ShowsReadableOnly asciiRules sampleTables stranger sampleQuery ∧
        ShowsReadableOnce asciiRules sampleTables stranger sampleQuery) := by
  refine ⟨by decide, fun h => ?_⟩
  have hget : getProject sampleTables stranger "project" = .ok ⟨sampleProject, none, false⟩ :=
    h.1 none [⟨sampleProject, none, false⟩] none rfl _ List.mem_cons_self
  have hdenied : getProject sampleTables stranger "project" = .error (.projectNotFound "project") :=
    rfl
  rw [hdenied] at hget
  cases hget

end CopilotRuntime.Projects
