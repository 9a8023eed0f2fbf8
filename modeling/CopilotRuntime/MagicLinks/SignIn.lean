import CopilotRuntime.MagicLinks.SingleUse

/-!
# Sessions of links

A session that a link leads to is in time and of an active user with its email, and a
pick token is exchanged for every organisation that it offers in which its email has
the user of the token.
-/

namespace CopilotRuntime.MagicLinks

open Foundation Identity
open Lockout (second)

variable {config : LinkConfig} {library : LinkLibrary} {w₀ : LinkWorld} {n m : Nat}
  {c : List LinkEvent × LinkPool}

/-- An active user of the organisation with the email. -/
def ActiveUser (d : Directory) (orgId userId email : String) : Prop :=
  ∃ u ∈ d.users.rows, u.userId = userId ∧ u.orgId = orgId ∧ u.deletedAt = none ∧
    u.status = .active ∧ u.primaryEmail = email

section Runs
variable (hlinks : w₀.links.rows = [])
  (h : CleanRun config library ([], Pool.initial w₀) c)
include hlinks h

variable {orgId userId : String} {r : MagicLinkTokenRecord}

/-- The user that was found active has the email of the link that it belongs to. -/
theorem activeUser_of_foundActive (hfound : FoundActive n orgId userId c.1)
    (hreads : Reads m r c.1) (huser : r.userId = userId) :
    ActiveUser c.2.shared.directory orgId userId r.emailLower := by
  have hkept := kept_of_cleanRun hlinks h
  obtain ⟨u, hmem, hactive⟩ := hfound
  obtain ⟨id, clock, hanswer⟩ := hkept.answered n (.getUser orgId userId) (some u) hmem
  obtain ⟨hrow, hid, horg, hdeleted⟩ := getUser_eq_some_iff.mp hanswer.symm
  obtain ⟨row, hlink, hissued⟩ := hkept.read m r hreads
  obtain ⟨v, hv, hvid, hemail⟩ := (hkept.addressed row hlink).of_issued hissued
  obtain rfl : u = v := IndexedTable.eq_of_mem_rows hrow hv (hid.trans (huser.symm.trans hvid.symm))
  rw [hkept.directory]
  exact ⟨u, hrow, hid, horg, hdeleted, hactive, hemail⟩

/-- A session that a link leads to directly is of its user, and in time. -/
theorem session_of_reads {session : SessionRecord} (hmints : Mints n session c.1)
    (hreads : Reads n r c.1) :
    session.createdAt ≤ r.expiresAt ∧
      ActiveUser c.2.shared.directory session.orgId session.userId r.emailLower := by
  have hbacked := (kept_of_cleanRun hlinks h).backed
  obtain ⟨earlier, later, record, hsplit, hfound, hchecked, w, hclean⟩ :=
    minted_of_mints hlinks h hmints
  have hsub : earlier ⊆ c.1 := hsplit ▸ List.subset_append_left _ _
  obtain ⟨r', ⟨hreads', -, t, hnow, hle⟩, huser⟩ | hpicked := hchecked
  · obtain rfl := reads_unique hbacked hreads (hreads'.mono hsub)
    refine ⟨(hclean.1 r hreads').2 t hnow hle, ?_⟩
    exact activeUser_of_foundActive hlinks h (hfound.mono hsub) hreads huser
  · obtain ⟨client, token, -, -, -, -, hstarted, -⟩ := hpicked
    have hpresents : Presents n token c.1 := ⟨client, _, hsub hstarted⟩
    exact absurd hreads (not_reads_of_presents hlinks h hpresents)

variable {token : String}

/-- So is a session that it leads to through a pick token. -/
theorem session_of_presents (hlawful : library.Lawful) {session : SessionRecord}
    {stamp : Int × String} (hmints : Mints n session c.1) (hpresents : Presents n token c.1)
    (hissues : Issues library m r stamp token c.1) :
    session.createdAt.tdiv second ≤ stamp.1.tdiv second + pickTokenTtlSeconds ∧
      ActiveUser c.2.shared.directory session.orgId session.userId r.emailLower := by
  obtain ⟨earlier, later, record, hsplit, hfound, hchecked, w, hclean⟩ :=
    minted_of_mints hlinks h hmints
  have hsub : earlier ⊆ c.1 := hsplit ▸ List.subset_append_left _ _
  obtain ⟨r', husable, -⟩ | hpicked := hchecked
  · exact absurd (husable.1.mono hsub) (not_reads_of_presents hlinks h hpresents)
  · obtain ⟨client, token', fields, exp, claims, t, hstarted, hverified, hexp, hclaims, huser, hnow,
      hle⟩ := hpicked
    obtain rfl := presents_unique h (hsub hstarted) hpresents
    obtain ⟨hreads, -, rfl⟩ := hissues
    obtain rfl := Except.ok.inj ((verified_signed _ _ _ hlawful).symm.trans hverified)
    obtain rfl := Except.ok.inj ((claimedExp_pickFields _ _ _ hlawful).symm.trans hexp)
    obtain rfl := Except.ok.inj ((readClaims_pickFields _ _ _).symm.trans hclaims)
    refine ⟨(hclean.2 _ ⟨client, _, hstarted⟩).2 _ _ t hverified hexp hnow hle, ?_⟩
    exact activeUser_of_foundActive hlinks h (hfound.mono hsub) hreads huser

/-! ### Selections -/

/-- When an exchange of a pick token looks its user up, the active user of the email in the
organisation is that user. -/
theorem sameUser_of_presents {reply : Option UserRecord}
    (hlooked : .performed n (.identity (.getUser orgId userId)) reply ∈ c.1)
    (hpresents : Presents n token c.1) : SameUser w₀.directory orgId userId := by
  have hall : EachAfter (fun trace event =>
      event = .performed n (.identity (.getUser orgId userId)) reply →
        ∃ call, .started n call ∈ trace ∧
          ((∃ token, Presents n token trace) → SameUser w₀.directory orgId userId)) c.1 := by
    refine eachAfter_of_step (fun trace pool event next run step hclean => ?_) h
    rintro rfl
    cases step with
    | perform running effect =>
        obtain ⟨call, hstarted⟩ := run.exists_started running
        refine ⟨call, hstarted, fun hsome => ?_⟩
        rw [← (run.invariant (linkVerified w₀ hlinks)).directory]
        exact hclean hsome
  obtain ⟨earlier, later, hsplit, hlast⟩ := hall.split hlooked
  obtain ⟨call, hstarted, hsame⟩ := hlast rfl
  have hsub : earlier ⊆ c.1 := hsplit ▸ List.subset_append_left _ _
  obtain ⟨client, orgId', hstarted'⟩ := hpresents
  obtain rfl := (Run.nil.of_advances h).started_unique (hsub hstarted) hstarted'
  exact hsame ⟨token, client, orgId', hstarted⟩

/-- An exchange of a pick token for an organisation that it offers, and in which its email has an
active user, is refused by the rate limiter only, or after the token has expired. -/
theorem selected_of_issues (hlawful : library.Lawful) {client : ClientInfo} {stamp : Int × String}
    {error : LinkError} (hstarted : .started n (.select client token orgId) ∈ c.1)
    (hissues : Issues library m r stamp token c.1)
    (horg : orgId ∈ r.candidateOrgs.map WorkspaceCandidate.orgId)
    (hactive : ActiveUser c.2.shared.directory orgId userId r.emailLower)
    (hraised : c.2.tasks n = some (.raised error)) :
    (∃ retry, error = .rateLimited retry) ∨
      ∃ t, .performed n .now t ∈ c.1 ∧
        stamp.1.tdiv second + pickTokenTtlSeconds < t.tdiv second := by
  have hkept := kept_of_cleanRun hlinks h
  have hrun := Run.nil.of_advances h
  have hsub : ownEvents n c.1 ⊆ c.1 := fun event hevent => (mem_ownEvents.mp hevent).1
  have hsafe := (hrun.safe (linkVerified w₀ hlinks)).2 n _ hraised
  obtain ⟨hreads, -, rfl⟩ := hissues
  have hverified := verified_signed r.userId (r.candidateOrgs.map WorkspaceCandidate.orgId) stamp
    hlawful
  have hexp := claimedExp_pickFields r.userId (r.candidateOrgs.map WorkspaceCandidate.orgId) stamp
    hlawful
  have hclaims := readClaims_pickFields r.userId (r.candidateOrgs.map WorkspaceCandidate.orgId)
    stamp
  cases hsafe with
  | raised holds =>
      obtain ⟨call, hcall, hrefusal⟩ := holds
      obtain rfl := hrun.started_unique hstarted (hsub hcall)
      cases hrefusal client _ orgId error rfl rfl with
      | limited retry => exact .inl ⟨retry, rfl⟩
      | unverified hno => cases hverified.symm.trans hno
      | unreadExp hyes hno =>
          obtain rfl := Except.ok.inj (hverified.symm.trans hyes)
          cases hexp.symm.trans hno
      | @expired fields exp t hyes hread hnow hlate =>
          obtain rfl := Except.ok.inj (hverified.symm.trans hyes)
          obtain rfl := Except.ok.inj (hexp.symm.trans hread)
          exact .inr ⟨t, hsub hnow, hlate⟩
      | unreadClaims hyes hno =>
          obtain rfl := Except.ok.inj (hverified.symm.trans hyes)
          cases hclaims.symm.trans hno
      | @notOffered fields claims hyes hread hnot =>
          obtain rfl := Except.ok.inj (hverified.symm.trans hyes)
          obtain rfl := Except.ok.inj (hclaims.symm.trans hread)
          exact absurd horg hnot
      | @inactive fields claims reply hyes hread hlooked hreply =>
          obtain rfl := Except.ok.inj (hverified.symm.trans hyes)
          obtain rfl := Except.ok.inj (hclaims.symm.trans hread)
          obtain ⟨u, hu, rfl, huorg, hdeleted, hstatus, hemail⟩ := hactive
          rw [hkept.directory] at hu
          obtain ⟨row, hlink, hissued⟩ := hkept.read m r hreads
          obtain ⟨v, hv, hvid, hvemail⟩ := (hkept.addressed row hlink).of_issued hissued
          have hsame : u.userId = r.userId :=
            sameUser_of_presents hlinks h (hsub hlooked) ⟨client, orgId, hstarted⟩ u hu v hv hvid
              huorg hdeleted hstatus (hemail.trans hvemail.symm)
          obtain ⟨id, clock, hanswer⟩ :=
            hkept.answered n (.getUser orgId r.userId) reply (hsub hlooked)
          have hfound : w₀.directory.getUser orgId r.userId = some u :=
            getUser_eq_some_iff.mpr ⟨hu, hsame, huorg, hdeleted⟩
          exact absurd hstatus (hreply u (hanswer.trans hfound))

/-! ### Links -/

end Runs

namespace Sample

def user (userId orgId email : String) : UserRecord where
  userId := userId
  orgId := orgId
  primaryEmail := email
  displayName := ""
  createdAt := 0

def users : List UserRecord := [user "u1" "o1" "both", user "u2" "o2" "both", user "u3" "o1" "one"]

/-- One email has users in two organisations, and another one in one. -/
def world : LinkWorld where
  clock := 0
  directory := { Directory.empty with
    users := users.foldl (fun table u => (table.insert? u).getD table) .empty }
  links := .empty
  sessions := .empty
  loginAttempts := []
  audits := []

/-- A character that JSON texts escape is four bytes. -/
def bytes (c : Char) : List UInt8 :=
  if c.toNat < 128 then [UInt8.ofNat c.toNat]
  else [255, UInt8.ofNat (c.toNat / 65536), UInt8.ofNat (c.toNat / 256), UInt8.ofNat c.toNat]

def readBytes : List UInt8 → List Char
  | [] => []
  | b :: rest =>
      if b.toNat < 128 then Char.ofNat b.toNat :: readBytes rest
      else
        match rest with
        | x :: y :: z :: rest =>
            Char.ofNat (x.toNat * 65536 + y.toNat * 256 + z.toNat) :: readBytes rest
        | _ => []

theorem readBytes_small {b : UInt8} (h : b.toNat < 128) (rest : List UInt8) :
    readBytes (b :: rest) = Char.ofNat b.toNat :: readBytes rest := by
  rw [readBytes.eq_def]
  exact if_pos h

theorem readBytes_large (x y z : UInt8) (rest : List UInt8) :
    readBytes (255 :: x :: y :: z :: rest) =
      Char.ofNat (x.toNat * 65536 + y.toNat * 256 + z.toNat) :: readBytes rest := by
  rw [readBytes.eq_def]
  exact if_neg (by decide)

theorem readBytes_flatMap (text : List Char) : readBytes (text.flatMap bytes) = text := by
  induction text with
  | nil => rfl
  | cons c rest ih =>
      have hc : c.toNat < 1114112 := by
        obtain hlow | ⟨-, hhigh⟩ := c.valid
        · exact Nat.lt_trans hlow (by decide)
        · exact hhigh
      rw [List.flatMap_cons, bytes]
      split
      · next hsmall =>
          have hbyte : (UInt8.ofNat c.toNat).toNat = c.toNat := by
            rw [UInt8.toNat_ofNat']
            omega
          rw [List.singleton_append, readBytes_small (hbyte.symm ▸ hsmall), hbyte,
            Char.ofNat_toNat, ih]
      · have hcode : c.toNat / 65536 % 2 ^ 8 * 65536 + c.toNat / 256 % 2 ^ 8 * 256 +
            c.toNat % 2 ^ 8 = c.toNat := by omega
        simp only [List.cons_append, List.nil_append]
        rw [readBytes_large, UInt8.toNat_ofNat', UInt8.toNat_ofNat', UInt8.toNat_ofNat', hcode,
          Char.ofNat_toNat, ih]

def dumps (v : Json) : List UInt8 := (Json.dumps v).toList.flatMap bytes

def readSegment (s : String) : Option Json :=
  Json.parse (String.ofList (readBytes (Base64Url.decode s.toList)))

def algorithms : LinkLibrary where
  dumps := dumps
  readSegment := readSegment
  hmac _ := []
  toInt
    | .int n => .ok n
    | _ => .error "not a number"
  sha256 text := text
  emailHash text := text

theorem lawful_algorithms : algorithms.Lawful where
  readSegment v hv := by
    have hread : readSegment (b64urlEncode (dumps v)) = Json.parse (Json.dumps v) := by
      rw [readSegment, b64urlEncode, dumps, String.toList_ofList, Base64Url.decode_encode,
        readBytes_flatMap, String.ofList_toList]
    have htext : Json.dumps v = Json.render Json.compact v.canonical := rfl
    simp only [algorithms]
    rw [hread, htext, Json.parse_render hv]
  toInt _ := rfl

def settings : LinkConfig where
  baseUrl := ""
  defaultTtlSeconds := 3600

def play (moves : List (Move LinkCall)) : List LinkEvent × LinkPool :=
  Pool.play LinkWorld.atOnce (LinkCall.body settings algorithms) world moves

/-- How a task has ended. -/
def result (run : List LinkEvent × LinkPool) (n : Nat) : Option (Except LinkError LinkResult) :=
  match run.2.tasks n with
  | some (.done value) => some (.ok value)
  | some (.raised error) => some (.error error)
  | _ => none

def pickToken : String := signed algorithms (pickPayload "u1" ["o1", "o2"] (0, "xx"))

/-- A link is sent and followed, and the pick token is exchanged. -/
def alone : List (Move LinkCall) :=
  .start (.request {} "both" none) :: List.replicate 14 (.perform 0) ++
    .start (.consume {} "x") :: List.replicate 8 (.perform 1) ++
    .start (.select {} pickToken "o1") :: List.replicate 6 (.perform 2)

/-- A link is followed twice at a time. -/
def twice : List (Move LinkCall) :=
  .start (.request {} "one" none) :: List.replicate 12 (.perform 0) ++
    .start (.consume {} "x") :: .start (.consume {} "x") ::
    List.replicate 4 (.perform 1) ++ List.replicate 9 (.perform 2) ++
    List.replicate 5 (.perform 1)

/-- The link that an event has read for a task. -/
def readBy (n : Nat) : LinkEvent → Option MagicLinkTokenRecord
  | .performed m (.getByHash _) reply => if m = n then reply else none
  | _ => none

/-- A check of the condition for runs in which one link or pick token is used. -/
def isClean (trace : List LinkEvent) (w : LinkWorld) : LinkEvent → Bool
  | .started _ (.select _ token _) => trace.any fun
      | .performed m .pickStamp stamp => (trace.filterMap (readBy m)).any fun r =>
          token = signed algorithms
            (pickPayload r.userId (r.candidateOrgs.map WorkspaceCandidate.orgId) stamp)
      | _ => false
  | .performed _ .pickStamp _ => w.links.rows.all (fun r => r.consumedAt.isNone) &&
      trace.all fun
        | .performed _ .pickStamp _ | .performed _ (.createSession _) _ => false
        | _ => true
  | .performed n (.createSession _) session => (trace.filterMap (readBy n)).isEmpty &&
      trace.all fun
        | .performed _ (.createSession _) _ => false
        | .performed m .now t => m ≠ n || session.createdAt ≤ t
        | _ => true
  | .performed _ (.identity (.getUser orgId userId)) _ => w.directory.users.rows.all fun u =>
      w.directory.users.rows.all fun v => v.userId ≠ userId || u.orgId ≠ orgId ||
        u.primaryEmail ≠ v.primaryEmail || u.userId = userId
  | _ => true

/-- The session that an event has created for a task. -/
def mintedBy (n : Nat) : LinkEvent → Option SessionRecord
  | .performed m (.createSession _) session => if m = n then some session else none
  | _ => none

variable {trace : List LinkEvent}

theorem mints_of_mem {session : SessionRecord} (h : session ∈ trace.filterMap (mintedBy n)) :
    Mints n session trace := by
  obtain ⟨e, he, hminted⟩ := List.mem_filterMap.mp h
  unfold mintedBy at hminted
  split at hminted
  · next m record created =>
      split at hminted
      · next hm =>
          subst hm
          cases hminted
          exact ⟨record, he⟩
      · cases hminted
  · cases hminted

theorem reads_iff {r : MagicLinkTokenRecord} :
    Reads n r trace ↔ r ∈ trace.filterMap (readBy n) := by
  rw [List.mem_filterMap]
  constructor
  · rintro ⟨tokenHash, hmem⟩
    exact ⟨_, hmem, if_pos rfl⟩
  · rintro ⟨e, he, hread⟩
    unfold readBy at hread
    split at hread
    · next m tokenHash reply =>
        split at hread
        · next hm =>
            subst hm hread
            exact ⟨tokenHash, he⟩
        · cases hread
    · cases hread

theorem issued_of_isClean {w : LinkWorld} {client : ClientInfo} {token orgId : String}
    (h : isClean trace w (.started n (.select client token orgId)) = true) :
    ∃ m r stamp, Issues algorithms m r stamp token trace := by
  obtain ⟨e, he, hissues⟩ := List.any_eq_true.mp h
  split at hissues
  · next m stamp =>
      obtain ⟨r, hr, htoken⟩ := List.any_eq_true.mp hissues
      exact ⟨m, r, stamp, reads_iff.mpr hr, he, of_decide_eq_true htoken⟩
  · cases hissues

theorem settled_of_isClean {w : LinkWorld} {stamp : Int × String}
    (h : isClean trace w (.performed n .pickStamp stamp) = true) (tokenId : String) :
    Settled trace w n tokenId := by
  obtain ⟨hopen, hunused⟩ := Bool.and_eq_true_iff.mp h
  constructor
  · intro row hrow _
    exact Option.isNone_iff_eq_none.mp (List.all_eq_true.mp hopen row hrow)
  · intro m r _ _ _ e he huses
    have hunused := List.all_eq_true.mp hunused e he
    split at hunused
    · cases hunused
    · cases hunused
    · next hstamp hcreate =>
        unfold Uses at huses
        split at huses
        · next k record reply => exact absurd rfl (hcreate k record reply)
        · next k reply => exact absurd rfl (hstamp k reply)
        · exact huses.elim

theorem tdiv_second_le {a b : Int} (h : a ≤ b) : a.tdiv second ≤ b.tdiv second :=
  Int.tdiv_le_tdiv (by decide) h

theorem clean_of_isClean (trace : List LinkEvent) (w : LinkWorld) (event : LinkEvent)
    (h : isClean trace w event = true) : Clean algorithms trace w event := by
  cases event with
  | started n call =>
      cases call with
      | select client token orgId => exact fun _ _ => issued_of_isClean h
      | request client email returnTo => exact trivial
      | consume client token => exact trivial
  | stopped n => exact trivial
  | performed n op reply =>
      cases op with
      | pickStamp => exact fun r _ => settled_of_isClean h r.tokenId
      | createSession record =>
          obtain ⟨hunread, hevents⟩ := Bool.and_eq_true_iff.mp h
          have hevent (e : LinkEvent) (he : e ∈ trace) := List.all_eq_true.mp hevents e he
          constructor
          · intro r hreads
            rw [reads_iff, List.isEmpty_iff.mp hunread] at hreads
            cases hreads
          · intro token _
            refine ⟨fun m _ _ session' hmints => ?_, fun fields exp t _ _ hnow hle => ?_⟩
            · obtain ⟨record', hmem⟩ := hmints
              cases hevent _ hmem
            · have hcreated := hevent _ hnow
              have hbefore : reply.createdAt ≤ t := by simpa using hcreated
              exact (tdiv_second_le hbefore).trans hle
      | identity request =>
          cases request with
          | getUser orgId userId =>
              intro _ u hu v hv hvid huorg _ _ hemail
              have hsame := List.all_eq_true.mp (List.all_eq_true.mp h u hu) v hv
              simpa [hvid, huorg, hemail] using hsame
          | _ => exact trivial
      | _ => exact trivial

end Sample

def Sample.aloneFacts :
    PLift (Pool.passes LinkWorld.atOnce (LinkCall.body Sample.settings Sample.algorithms)
      Sample.isClean ([], Pool.initial Sample.world) Sample.alone = true ∧
        Sample.result (Sample.play Sample.alone) 2 =
          some (.ok (.selected ⟨"xx", "u1", "o1", 3600 * second⟩))) :=
  ⟨by decide +kernel⟩

def Sample.twiceFacts :
    PLift ((Sample.play Sample.twice).1.filterMap (Sample.mintedBy 1) ≠ [] ∧
      (Sample.play Sample.twice).1.filterMap (Sample.mintedBy 2) ≠ [] ∧
      (Sample.play Sample.twice).1.filterMap (Sample.readBy 1) ≠ [] ∧
      (Sample.play Sample.twice).1.filterMap (Sample.readBy 2) =
        (Sample.play Sample.twice).1.filterMap (Sample.readBy 1)) :=
  ⟨by decide +kernel⟩

end CopilotRuntime.MagicLinks
