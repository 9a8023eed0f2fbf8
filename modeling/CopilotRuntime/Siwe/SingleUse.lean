import CopilotRuntime.Siwe.SignIn

/-!
# Single use of nonces

A nonce is consumed by one call at most, and a call that raises leaves nothing behind
unless somebody else stores the wallet of a sign-up that has founded its organisation.
-/

namespace CopilotRuntime.Siwe

open Foundation Identity Lockout
open AccountMerge (Account)

variable {config : SiweConfig} {library : SiweLibrary} {w₀ : SiweWorld} {n : Nat}
  {c : List SiweEvent × SiwePool}

/-- A task that has founded an organisation stores its link of a wallet while nobody has it. -/
def Unraced (trace : List SiweEvent) (w : SiweWorld) : SiweEvent → Prop
  | .performed n (.createWalletIdentity record) _ => (∃ org, Founded n org trace) →
      ∀ id clock, ∀ r ∈ w.wallets.rows, r.address ≠ (record id clock).address
  | _ => True

/-- The runs in which no sign-up is overtaken. -/
abbrev UnracedRun (config : SiweConfig) (library : SiweLibrary) :
    List SiweEvent × SiwePool → List SiweEvent × SiwePool → Prop :=
  Relation.ReflTransGen
    (Advances (SiweCall.body config library) (SiweWorld.env library.lower) Unraced)

/-- The task of a call has returned the value. -/
def Succeeds (c : List SiweEvent × SiwePool) (n : Nat) (call : SiweCall) (value : SiweResult) :
    Prop :=
  .started n call ∈ c.1 ∧ c.2.tasks n = some (.done value)

section Runs
variable (h : UnracedRun config library ([], Pool.initial w₀) c)
include h

theorem kept_of_unracedRun : Kept c.1 c.2.shared := by
  have hrun := Run.nil.of_advances h
  exact hrun.invariant (siweVerified w₀)

/-! ### Consumptions -/

theorem nonce_consumed_once (nonce : String) :
    AtMostOnce (fun e => ∃ n r, e = .performed n (.consumeNonce nonce) (some r)) c.1 := by
  refine atMostOnce_of_advances (D := fun w => ∃ r ∈ w.nonces.rows,
    r.nonce = nonce ∧ r.consumedAt.isSome = true) ?_ h
  intro trace pool event next run step _
  have hbacked := ((run.snoc step).invariant (siweVerified w₀)).backed
  rw [eachAfter_snoc] at hbacked
  cases step with
  | start call => exact ⟨nofun, id⟩
  | stop running => exact ⟨nofun, id⟩
  | perform running effect =>
      refine ⟨?_, fun ⟨r, hmem, hnonce, hconsumed⟩ => ?_⟩
      · rintro ⟨m, r, heq⟩
        cases heq
        obtain ⟨hopen, hnonce, hconsumed, hmem⟩ := consumed_of_env effect
        refine ⟨?_, r, hmem, hnonce, hconsumed ▸ rfl⟩
        rintro ⟨row, hrow, hrowNonce, hrowConsumed⟩
        rw [hopen row hrow hrowNonce] at hrowConsumed
        cases hrowConsumed
      · exact ⟨r, mem_consumed_of_env effect hmem hconsumed (nonceId_of_rests hbacked.2), hnonce,
          hconsumed⟩

theorem proven_of_succeeds {call : SiweCall} {value : SiweResult}
    (hsucceeds : Succeeds c n call value) : Proven library n call c.1 := by
  have hrun := Run.nil.of_advances h
  have hsafe := (hrun.safe (siweVerified w₀)).2 n _ hsucceeds.2
  have hsub : ownEvents n c.1 ⊆ c.1 := fun event hevent => (mem_ownEvents.mp hevent).1
  cases hsafe with
  | done holds =>
      obtain ⟨call', hstarted', hproven⟩ := holds.2 value rfl
      obtain rfl := hrun.started_unique hsucceeds.1 (hsub hstarted')
      intro message hmessage
      obtain ⟨parsed, hparsed, hconsumed⟩ := hproven message hmessage
      exact ⟨parsed, hparsed, hconsumed.mono hsub⟩

/-! ### Failures -/

/-- No task that has founded an organisation is refused its link of a wallet. -/
theorem not_refused :
    EachAfter (fun earlier event => ∀ n record message,
      event = .performed n (.createWalletIdentity record) (.error message) →
        ¬ ∃ org, Founded n org earlier) c.1 := by
  refine eachAfter_of_step ?_ h
  rintro trace pool event next - step hunraced n record message rfl hfounded
  cases step with
  | perform running effect =>
      obtain ⟨clock, draw, -, -, hanswer⟩ := effect
      change _ = SiweWorld.createWalletIdentity _ (record draw.id clock) at hanswer
      obtain ⟨-, r, hr, haddress⟩ | ⟨wallets, wallet, heq⟩ :=
        createWalletIdentity_cases (pool.shared.atTime clock) (record draw.id clock)
      · exact hunraced hfounded draw.id clock r hr haddress
      · rw [heq] at hanswer
        cases hanswer

theorem silent_of_raised {error : SiweError} (hraised : c.2.tasks n = some (.raised error)) :
    Silent n c.1 := by
  have hrun := Run.nil.of_advances h
  have hsafe := (hrun.safe (siweVerified w₀)).2 n _ hraised
  have hown : Silent n (ownEvents n c.1) := by
    cases hsafe with
    | raised holds =>
        obtain hsilent | ⟨before, record, message, hevents, org, hfounded⟩ := holds.1 error rfl
        · exact hsilent
        · obtain ⟨earlier, later, htrace, rfl, -⟩ := exists_split_of_ownEvents hevents
          refine absurd ⟨org, ?_⟩ (not_refused h earlier _ later htrace n record message rfl)
          exact hfounded.mono fun event hevent => (mem_ownEvents.mp hevent).1
  exact fun event hevent hcreates =>
    hown event (mem_ownEvents.mpr ⟨hevent, hcreates.task⟩) hcreates

end Runs

/-! ### Single use -/

namespace Sample

def address : String := "0xabcdabcdabcdabcdabcdabcdabcdabcdabcdabcd"

def message (nonce : String) : String :=
  "\n".intercalate ["app wants you to sign in with your Ethereum account:", address, "",
    siweStatement, "", "URI: app:", "Version: 1", "Chain ID: 1", "Nonce: " ++ nonce,
    "Issued At: 0", "Expiration Time: 1"]

def nonce (nonceId nonce : String) : SiweNonceRecord where
  nonceId := nonceId
  nonce := nonce
  address := address
  chainId := 1
  issuedAt := 0
  expiresAt := 300 * second

def nonces : Nonces :=
  let one := (IndexedTable.empty.insert? (nonce "id-1" "abcd1234")).getD .empty
  (one.insert? (nonce "id-2" "wxyz5678")).getD .empty

/-- Two nonces for a wallet that nobody has. -/
def world : SiweWorld where
  lockout := ⟨0, .empty, .empty, [], []⟩
  directory := .empty
  nonces := nonces
  wallets := .empty
  sessions := .empty
  requiresMfa _ := false
  hasFactor _ := false

/-- Every message is signed by the wallet. -/
def algorithms : SiweLibrary where
  lower := Text.lower
  repr text := text
  urlsplit _ := ("app", "app")
  fromIsoformat text := some (.ok (if text = "0" then 0 else second))
  isChecksumAddress _ := true
  toChecksumAddress text := text
  recoverMessage _ _ := .ok address

def settings : SiweConfig where
  expectedScheme := "app"
  expectedAuthority := "app"
  allowedChainIds := [1]
  allowSelfSignup := true
  sessionTtlSeconds := 3600

def signIn (nonce : String) : SiweCall := .verify {} (message nonce) ""

/-- What a message says. -/
def signed (nonce : String) : SiweMessage where
  domain := "app"
  address := address
  statement := siweStatement
  uri := "app:"
  version := "1"
  chainId := 1
  nonce := nonce
  issuedAt := "0"
  expirationTime := "1"

def fixedLines : PLift (∀ line ∈ ["app wants you to sign in with your Ethereum account:", address, "",
    siweStatement, "", "URI: app:", "Version: 1", "Chain ID: 1", "Nonce: ", "Issued At: 0",
    "Expiration Time: 1"], '\n' ∉ line.toList) := ⟨by decide +kernel⟩

theorem split_message {nonce : String} (h : '\n' ∉ nonce.toList) :
    Text.split (message nonce) '\n' =
      ["app wants you to sign in with your Ethereum account:", address, "", siweStatement, "",
        "URI: app:", "Version: 1", "Chain ID: 1", "Nonce: " ++ nonce, "Issued At: 0",
        "Expiration Time: 1"] := by
  have hbreak : "\n" = String.singleton '\n' := by decide
  unfold message
  rw [hbreak]
  apply Text.split_intercalate (List.cons_ne_nil _ _)
  intro line hline
  by_cases heq : line = "Nonce: " ++ nonce
  · subst heq
    rw [String.toList_append, List.mem_append, not_or]
    exact ⟨fixedLines.down "Nonce: " (by simp), h⟩
  · apply fixedLines.down line
    simp only [List.mem_cons, heq, false_or] at hline ⊢
    tauto

theorem isBlank_message (nonce : String) : Text.isBlank (message nonce) = false := by
  have hletter : 'a' ∈ (message nonce).toList := by
    simp [message, String.intercalate_cons_cons]
  rw [Text.isBlank, List.all_eq_false]
  exact ⟨'a', hletter, by decide⟩

/-- A call reads its message and goes on with what it says. -/
theorem body_signIn {nonce : String}
    (hparsed : parseSiweMessage algorithms (message nonce) = .ok (signed nonce)) :
    SiweCall.body settings algorithms (signIn nonce) =
      verifyParsed settings algorithms {} (message nonce) "" (signed nonce) >>= fun result =>
        return .verified result := by
  have hread : readMessage algorithms (message nonce) = .ok (signed nonce) := by
    rw [readMessage, hparsed]
    exact if_pos rfl
  have hallowed : (signed nonce).chainId ∈ settings.allowedChainIds := List.mem_singleton.mpr rfl
  simp only [signIn, SiweCall.body, verify, hread, if_pos hallowed]

def parsedFirst :
    PLift (parseSiweMessage algorithms (message "abcd1234") = .ok (signed "abcd1234")) :=
  ⟨by
    unfold parseSiweMessage
    rw [split_message (by decide), isBlank_message]
    decide +kernel⟩

def parsedSecond :
    PLift (parseSiweMessage algorithms (message "wxyz5678") = .ok (signed "wxyz5678")) :=
  ⟨by
    unfold parseSiweMessage
    rw [split_message (by decide), isBlank_message]
    decide +kernel⟩

def play (moves : List (Move SiweCall)) : List SiweEvent × SiwePool :=
  Pool.play (SiweWorld.atOnce algorithms.lower) (SiweCall.body settings algorithms) world moves

/-- One sign-up alone. -/
def alone : List (Move SiweCall) :=
  .start (signIn "abcd1234") :: List.replicate 24 (.perform 0)

/-- Another sign-up of the wallet runs to its end when one is about to store its link. -/
def overtaken : List (Move SiweCall) :=
  .start (signIn "abcd1234") :: .start (signIn "wxyz5678") ::
    List.replicate 11 (.perform 0) ++ List.replicate 24 (.perform 1) ++ [.perform 0]

/-- A check of the condition for runs in which nobody has a wallet at a link. -/
def isUnraced (_ : List SiweEvent) (w : SiweWorld) : SiweEvent → Bool
  | .performed _ (.createWalletIdentity _) _ => w.wallets.rows.isEmpty
  | _ => true

theorem unraced_of_isUnraced (trace : List SiweEvent) (w : SiweWorld) (event : SiweEvent)
    (h : isUnraced trace w event = true) : Unraced trace w event := by
  cases event with
  | performed n op reply =>
      cases op with
      | createWalletIdentity record =>
          intro _ id clock r hr
          rw [List.isEmpty_iff.mp h] at hr
          cases hr
      | _ => exact trivial
  | started n call => exact trivial
  | stopped n => exact trivial

/-- How a task has ended. -/
def result (run : List SiweEvent × SiwePool) (n : Nat) : Option (Except SiweError SiweResult) :=
  match run.2.tasks n with
  | some (.done value) => some (.ok value)
  | some (.raised error) => some (.error error)
  | _ => none

theorem raised_of_result {run : List SiweEvent × SiwePool} {error : SiweError}
    (h : result run n = some (.error error)) : run.2.tasks n = some (.raised error) := by
  rw [result] at h
  split at h
  · cases h
  · next heq =>
      rw [heq]
      cases h
      rfl
  · cases h

theorem run_play (moves : List (Move SiweCall)) :
    Run (SiweCall.body settings algorithms) (SiweWorld.env algorithms.lower) world (play moves).1
      (play moves).2 :=
  Run.play (SiweWorld.atOnce_sound algorithms.lower) moves

/-- The organisations that a task has stored. -/
def foundedBy (n : Nat) : SiweEvent → Option OrganizationRecord
  | .performed m (.identity (.createOrganization _)) (.ok org) => if m = n then some org else none
  | _ => none

theorem founded_of_mem {trace : List SiweEvent} {org : OrganizationRecord}
    (h : org ∈ trace.filterMap (foundedBy n)) : Founded n org trace := by
  obtain ⟨event, hevent, hsome⟩ := List.mem_filterMap.mp h
  unfold foundedBy at hsome
  split at hsome
  · next m record stored =>
      split at hsome
      · next hm =>
          subst hm
          cases hsome
          exact ⟨record, hevent⟩
      · cases hsome
  · cases hsome

end Sample

def Sample.aloneFacts :
    PLift (Pool.passes (SiweWorld.atOnce Sample.algorithms.lower)
      (SiweCall.body Sample.settings Sample.algorithms) Sample.isUnraced
      ([], Pool.initial Sample.world) Sample.alone = true ∧
        Sample.result (Sample.play Sample.alone) 0 =
          some (.ok (.verified ⟨"xxxxxx", "xxxxxxxxx", 3600 * second, false⟩))) :=
  ⟨by
    simp only [Sample.play, Pool.play, Sample.alone, Pool.passes, Pool.advance, List.foldl_cons,
      Sample.body_signIn Sample.parsedFirst.down]
    decide +kernel⟩

def Sample.overtakenFacts :
    PLift (Sample.result (Sample.play Sample.overtaken) 0 =
        some (.error (.valueError "wallet identity already linked for this address")) ∧
      ∃ org ∈ (Sample.play Sample.overtaken).1.filterMap (Sample.foundedBy 0),
        org ∈ (Sample.play Sample.overtaken).2.shared.directory.organizations.rows) :=
  ⟨by
    simp only [Sample.play, Pool.play, Sample.overtaken, List.cons_append, List.foldl_cons,
      Pool.advance, Sample.body_signIn Sample.parsedFirst.down, Sample.body_signIn Sample.parsedSecond.down]
    decide +kernel⟩

end CopilotRuntime.Siwe
