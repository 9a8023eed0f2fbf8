import CopilotRuntime.MagicLinks.Service

/-!
# What operations leave of the links

Nothing here writes to the identity store. A link keeps what it was issued with, and
once it is consumed it stays so.
-/

namespace CopilotRuntime.MagicLinks

open Foundation Identity

abbrev LinkEvent := Event LinkOp LinkOp.Reply LinkCall
abbrev LinkPool := Pool LinkOp LinkOp.Reply LinkError LinkResult LinkWorld

variable {w w' : LinkWorld}

/-- A request that only reads the identity store. -/
def ReadsOnly : IdentityOp → Prop
  | .createOrganization _ | .createUser _ | .addMember _ | .assignRole _ => False
  | _ => True

theorem answer_of_readsOnly {request : IdentityOp} (h : ReadsOnly request) (id : String)
    (clock : Int) (d : Directory) : (Directory.answer id clock request d).2 = d := by
  cases request with
  | createOrganization record => exact h.elim
  | createUser record => exact h.elim
  | addMember record => exact h.elim
  | assignRole record => exact h.elim
  | _ => rfl

/-- What a link was issued with. -/
def MagicLinkTokenRecord.issued (r : MagicLinkTokenRecord) : MagicLinkTokenRecord :=
  { r with consumedAt := none, consumedSessionId := none }

theorem eq_of_issued {r r' : MagicLinkTokenRecord} (h : r.issued = r'.issued) :
    r.tokenId = r'.tokenId ∧ r.userId = r'.userId ∧ r.emailLower = r'.emailLower := by
  simp only [MagicLinkTokenRecord.issued, MagicLinkTokenRecord.mk.injEq] at h
  exact ⟨h.1, h.2.2.1, h.2.2.2.1⟩

/-! ### Writes -/

theorem createLink_cases (w : LinkWorld) (record : MagicLinkTokenRecord) :
    (∃ message, w.createLink record = (.error message, w)) ∨
    ∃ links, w.createLink record = (.ok record, { w with links := links }) ∧
      ∀ r, r ∈ links.rows ↔ r = record ∨ r ∈ w.links.rows ∧ r.tokenId ≠ record.tokenId := by
  rw [LinkWorld.createLink]
  cases hinsert : w.links.insert? record with
  | none => exact .inl ⟨_, rfl⟩
  | some links => exact .inr ⟨links, rfl, fun r => IndexedTable.mem_rows_of_insert? hinsert⟩

/-- A mark is made on an open link; else the link is consumed or there is none. -/
theorem markConsumed_cases (w : LinkWorld) (tokenId : String) (sessionId : Option String) :
    (w.markConsumed tokenId sessionId = (false, w) ∧
      ∀ r ∈ w.links.rows, r.tokenId = tokenId → r.consumedAt.isSome = true) ∨
    ∃ row ∈ w.links.rows, row.tokenId = tokenId ∧ row.consumedAt = none ∧
      ∃ links, w.markConsumed tokenId sessionId = (true, { w with links := links }) ∧
        ∀ r, r ∈ links.rows ↔
          r = row.consumed w.clock sessionId ∨ r ∈ w.links.rows ∧ r.tokenId ≠ tokenId := by
  rw [LinkWorld.markConsumed]
  split
  · next hnone =>
      refine .inl ⟨rfl, fun r hr hid => ?_⟩
      rw [IndexedTable.mem_rows_iff, hid, hnone] at hr
      cases hr
  · next row hfound =>
      have hid : row.tokenId = tokenId := Table.key_of_find? hfound
      have hrow : row ∈ w.links.rows := IndexedTable.mem_of_find? hfound
      split
      · next hconsumed =>
          refine .inl ⟨rfl, fun r hr heq => ?_⟩
          obtain rfl := IndexedTable.eq_of_mem_rows hr hrow (heq.trans hid.symm)
          exact hconsumed
      · next hopen =>
          refine .inr ⟨row, hrow, hid, Option.not_isSome_iff_eq_none.mp hopen, _, rfl, fun r => ?_⟩
          subst hid
          exact IndexedTable.mem_rows_put (Links.admits_consumed hfound w.clock sessionId)

/-! ### One step -/

theorem directory_of_env {op : LinkOp} {reply : op.Reply} (henv : LinkWorld.env op w reply w')
    (hreads : ∀ request, op = .identity request → ReadsOnly request) :
    w'.directory = w.directory := by
  obtain ⟨clock, draw, -, hanswer⟩ := henv
  obtain rfl : w' = _ := congrArg Prod.snd hanswer
  cases op with
  | identity request => exact answer_of_readsOnly (hreads request rfl) draw.id clock w.directory
  | createLink record =>
      obtain ⟨message, heq⟩ | ⟨links, heq, -⟩ :=
        createLink_cases (w.atTime clock) (record draw.id clock)
      · exact congrArg (fun x => x.2.directory) heq
      · exact congrArg (fun x => x.2.directory) heq
  | markConsumed tokenId sessionId =>
      obtain ⟨heq, -⟩ | ⟨row, -, -, -, links, heq, -⟩ :=
        markConsumed_cases (w.atTime clock) tokenId sessionId
      · exact congrArg (fun x => x.2.directory) heq
      · exact congrArg (fun x => x.2.directory) heq
  | _ => rfl

theorem reply_of_identity {request : IdentityOp} {reply : request.Reply}
    (henv : LinkWorld.env (.identity request) w reply w') :
    ∃ id clock, reply = (Directory.answer id clock request w.directory).1 := by
  obtain ⟨clock, draw, -, hanswer⟩ := henv
  exact ⟨draw.id, clock, congrArg Prod.fst hanswer⟩

theorem reply_of_getByHash {tokenHash : String} {r : MagicLinkTokenRecord}
    (henv : LinkWorld.env (.getByHash tokenHash) w (some r) w') : r ∈ w.links.rows := by
  obtain ⟨clock, draw, -, hanswer⟩ := henv
  have hfound : w.links.lookup tokenHash = some r := (congrArg Prod.fst hanswer).symm
  exact (IndexedTable.lookup_eq_some_iff.mp hfound).1

/-- A row after an operation was there, marked at most by now, or it has just been created. -/
theorem mem_links_of_env {op : LinkOp} {reply : op.Reply} (henv : LinkWorld.env op w reply w')
    {r : MagicLinkTokenRecord} (hr : r ∈ w'.links.rows) :
    (∃ row ∈ w.links.rows, row.issued = r.issued ∧
      (row.consumedAt.isSome = true → r.consumedAt.isSome = true)) ∨
    ∃ record id clock, op = .createLink record ∧ r = record id clock ∧ id ∉ w.ids := by
  obtain ⟨clock, draw, hfresh, hanswer⟩ := henv
  obtain rfl : w' = _ := congrArg Prod.snd hanswer
  cases op with
  | createLink record =>
      change r ∈ (LinkWorld.createLink _ (record draw.id clock)).2.links.rows at hr
      obtain ⟨message, heq⟩ | ⟨links, heq, hrows⟩ :=
        createLink_cases (w.atTime clock) (record draw.id clock)
      · rw [heq] at hr
        exact .inl ⟨r, hr, rfl, id⟩
      · rw [heq] at hr
        obtain rfl | ⟨hold, -⟩ := (hrows r).mp hr
        · exact .inr ⟨record, draw.id, clock, rfl, rfl, hfresh⟩
        · exact .inl ⟨r, hold, rfl, id⟩
  | markConsumed tokenId sessionId =>
      change r ∈ (LinkWorld.markConsumed _ tokenId sessionId).2.links.rows at hr
      obtain ⟨heq, -⟩ | ⟨row, hrow, -, -, links, heq, hrows⟩ :=
        markConsumed_cases (w.atTime clock) tokenId sessionId
      · rw [heq] at hr
        exact .inl ⟨r, hr, rfl, id⟩
      · rw [heq] at hr
        obtain rfl | ⟨hold, -⟩ := (hrows r).mp hr
        · exact .inl ⟨row, hrow, rfl, fun _ => rfl⟩
        · exact .inl ⟨r, hold, rfl, id⟩
  | _ => exact .inl ⟨r, hr, rfl, id⟩

/-- A row stays, marked at most, unless a link with its id is created. -/
theorem exists_links_of_env {op : LinkOp} {reply : op.Reply} (henv : LinkWorld.env op w reply w')
    {r : MagicLinkTokenRecord} (hr : r ∈ w.links.rows)
    (hcreate : ∀ record, op = .createLink record → ∀ id clock, (record id clock).tokenId = id) :
    ∃ row ∈ w'.links.rows, row.issued = r.issued ∧
      (r.consumedAt.isSome = true → row.consumedAt.isSome = true) := by
  obtain ⟨clock, draw, hfresh, hanswer⟩ := henv
  obtain rfl : w' = _ := congrArg Prod.snd hanswer
  cases op with
  | createLink record =>
      change ∃ row ∈ (LinkWorld.createLink _ (record draw.id clock)).2.links.rows, _
      obtain ⟨message, heq⟩ | ⟨links, heq, hrows⟩ :=
        createLink_cases (w.atTime clock) (record draw.id clock)
      · rw [heq]
        exact ⟨r, hr, rfl, id⟩
      · rw [heq]
        refine ⟨r, (hrows r).mpr (.inr ⟨hr, fun hid => hfresh ?_⟩), rfl, id⟩
        rw [hcreate record rfl] at hid
        rw [← hid]
        exact List.mem_append_left _ (List.mem_map_of_mem hr)
  | markConsumed tokenId sessionId =>
      change ∃ row ∈ (LinkWorld.markConsumed _ tokenId sessionId).2.links.rows, _
      obtain ⟨heq, -⟩ | ⟨row, hrow, hid, hopen, links, heq, hrows⟩ :=
        markConsumed_cases (w.atTime clock) tokenId sessionId
      · rw [heq]
        exact ⟨r, hr, rfl, id⟩
      · rw [heq]
        by_cases hsame : r.tokenId = tokenId
        · obtain rfl := IndexedTable.eq_of_mem_rows hr hrow (hsame.trans hid.symm)
          exact ⟨_, (hrows _).mpr (.inl rfl), rfl, fun _ => rfl⟩
        · exact ⟨r, (hrows r).mpr (.inr ⟨hr, hsame⟩), rfl, id⟩
  | _ => exact ⟨r, hr, rfl, id⟩

/-- After a mark the link is consumed, whether or not this mark was the first. -/
theorem consumed_of_markConsumed {tokenId : String} {sessionId : Option String} {reply : Bool}
    (henv : LinkWorld.env (.markConsumed tokenId sessionId) w reply w') :
    ∀ r ∈ w'.links.rows, r.tokenId = tokenId → r.consumedAt.isSome = true := by
  obtain ⟨clock, draw, -, hanswer⟩ := henv
  obtain rfl : w' = _ := congrArg Prod.snd hanswer
  change ∀ r ∈ (LinkWorld.markConsumed _ tokenId sessionId).2.links.rows, _
  obtain ⟨heq, hall⟩ | ⟨row, -, -, -, links, heq, hrows⟩ :=
    markConsumed_cases (w.atTime clock) tokenId sessionId
  · rw [heq]
    exact hall
  · rw [heq]
    intro r hr hid
    obtain rfl | ⟨-, hne⟩ := (hrows r).mp hr
    · rfl
    · exact absurd hid hne

end CopilotRuntime.MagicLinks
