import CopilotRuntime.Identity.DirectoryLaws
import CopilotRuntime.Siwe.Service

/-!
# What sign-in operations leave of the stores

A nonce is consumed once and its row stays. What is stored for an organisation that a
task has founded was stored by that task, as its ids were drawn for it.
-/

namespace CopilotRuntime.Siwe

open Foundation Identity Lockout
open AccountMerge (Account)

abbrev SiweEvent := Event SiweOp SiweOp.Reply SiweCall
abbrev SiwePool := Pool SiweOp SiweOp.Reply SiweError SiweResult SiweWorld

variable {lower : String → String} {w w' : SiweWorld} {trace : List SiweEvent} {n : Nat}

/-! ### What an operation does not touch -/

/-- An operation changes the stores that it is about only. -/
structure Untouched (op : SiweOp) (w w' : SiweWorld) : Prop where
  directory : (∀ request, op ≠ .identity request) → w'.directory = w.directory
  lockouts : (∀ request, op ≠ .lockout request) → w'.lockout.lockouts = w.lockout.lockouts
  nonces : (∀ record, op ≠ .createNonce record) → (∀ nonce, op ≠ .consumeNonce nonce) →
    w'.nonces = w.nonces

theorem consumeNonce_cases (w : SiweWorld) (nonce : String) :
    w.consumeNonce nonce = (none, w) ∨
    ∃ row, row ∈ w.nonces.rows ∧ row.nonce = nonce ∧ row.consumedAt = none ∧
      ∃ nonces, w.consumeNonce nonce =
          (some (row.consumed w.lockout.clock), { w with nonces := nonces }) ∧
        ∀ r, r ∈ nonces.rows ↔
          r = row.consumed w.lockout.clock ∨ r ∈ w.nonces.rows ∧ r.nonceId ≠ row.nonceId := by
  rw [SiweWorld.consumeNonce]
  split
  · exact .inl rfl
  · next row hrow =>
      obtain ⟨hmem, hnonce⟩ := IndexedTable.lookup_eq_some_iff.mp hrow
      split
      · exact .inl rfl
      · next hopen =>
          refine .inr ⟨row, hmem, Option.some.inj hnonce, ?_, _, rfl, fun r => ?_⟩
          · exact Option.not_isSome_iff_eq_none.mp hopen
          · exact IndexedTable.mem_rows_put (Nonces.admits_consumed hmem w.lockout.clock)

theorem createNonce_cases (w : SiweWorld) (record : SiweNonceRecord) :
    (∃ message, w.createNonce record = (.error message, w)) ∨
    ∃ nonces, w.createNonce record = (.ok record, { w with nonces := nonces }) ∧
      (∀ r ∈ w.nonces.rows, r.nonce ≠ record.nonce) ∧
      ∀ r, r ∈ nonces.rows ↔ r = record ∨ r ∈ w.nonces.rows ∧ r.nonceId ≠ record.nonceId := by
  rw [SiweWorld.createNonce]
  cases hinsert : w.nonces.insert? record with
  | none => exact .inl ⟨_, rfl⟩
  | some nonces =>
      refine .inr ⟨nonces, rfl, fun r hr heq => ?_, fun r => IndexedTable.mem_rows_of_insert? hinsert⟩
      have hfree := (IndexedTable.insert?_eq_some hinsert).1
      refine IndexedTable.lookup_eq_none_iff.mp hfree r hr ?_
      exact congrArg some heq

theorem createWalletIdentity_cases (w : SiweWorld) (record : WalletIdentityRecord) :
    ((∃ message, w.createWalletIdentity record = (.error message, w)) ∧
      ∃ r ∈ w.wallets.rows, r.address = record.address) ∨
    ∃ wallets wallet, w.createWalletIdentity record = (.ok wallet, { w with wallets := wallets }) := by
  rw [SiweWorld.createWalletIdentity]
  cases hinsert : w.wallets.insert? record.withDefaultPrincipal with
  | some wallets => exact .inr ⟨wallets, _, rfl⟩
  | none =>
      refine .inl ⟨⟨_, rfl⟩, ?_⟩
      by_contra hfree
      obtain ⟨wallets, hsome⟩ : ∃ wallets,
          w.wallets.insert? record.withDefaultPrincipal = some wallets := by
        refine IndexedTable.insert?_of_free fun r hr i hi hi' => hfree ⟨r, hr, ?_⟩
        have haddress : record.withDefaultPrincipal.address = record.address := by
          rw [WalletIdentityRecord.withDefaultPrincipal]
          split
          · rfl
          · rfl
        rw [← haddress]
        exact Option.some.inj (hi'.trans hi.symm)
      rw [hsome] at hinsert
      cases hinsert

theorem untouched_of_env {op : SiweOp} {reply : op.Reply}
    (henv : SiweWorld.env lower op w reply w') : Untouched op w w' := by
  obtain ⟨clock, draw, -, -, hanswer⟩ := henv
  obtain rfl : w' = _ := congrArg Prod.snd hanswer
  cases op with
  | identity request =>
      exact ⟨fun h => absurd rfl (h request), fun _ => rfl, fun _ _ => rfl⟩
  | lockout request =>
      exact ⟨fun _ => rfl, fun h => absurd rfl (h request), fun _ _ => rfl⟩
  | createNonce record =>
      refine ⟨fun _ => ?_, fun _ => ?_, fun h _ => absurd rfl (h record)⟩
      · obtain ⟨message, heq⟩ | ⟨nonces, heq, -⟩ :=
          createNonce_cases (w.atTime clock) (record draw.id clock)
        · exact congrArg (fun x => x.2.directory) heq
        · exact congrArg (fun x => x.2.directory) heq
      · obtain ⟨message, heq⟩ | ⟨nonces, heq, -⟩ :=
          createNonce_cases (w.atTime clock) (record draw.id clock)
        · exact congrArg (fun x => x.2.lockout.lockouts) heq
        · exact congrArg (fun x => x.2.lockout.lockouts) heq
  | consumeNonce nonce =>
      refine ⟨fun _ => ?_, fun _ => ?_, fun _ h => absurd rfl (h nonce)⟩
      · obtain heq | ⟨row, -, -, -, nonces, heq, -⟩ := consumeNonce_cases (w.atTime clock) nonce
        · exact congrArg (fun x => x.2.directory) heq
        · exact congrArg (fun x => x.2.directory) heq
      · obtain heq | ⟨row, -, -, -, nonces, heq, -⟩ := consumeNonce_cases (w.atTime clock) nonce
        · exact congrArg (fun x => x.2.lockout.lockouts) heq
        · exact congrArg (fun x => x.2.lockout.lockouts) heq
  | createWalletIdentity record =>
      obtain ⟨⟨message, heq⟩, -⟩ | ⟨wallets, wallet, heq⟩ :=
        createWalletIdentity_cases (w.atTime clock) (record draw.id clock)
      · refine ⟨fun _ => ?_, fun _ => ?_, fun _ _ => ?_⟩
        · exact congrArg (fun x => x.2.directory) heq
        · exact congrArg (fun x => x.2.lockout.lockouts) heq
        · exact congrArg (fun x => x.2.nonces) heq
      · refine ⟨fun _ => ?_, fun _ => ?_, fun _ _ => ?_⟩
        · exact congrArg (fun x => x.2.directory) heq
        · exact congrArg (fun x => x.2.lockout.lockouts) heq
        · exact congrArg (fun x => x.2.nonces) heq
  | _ => exact ⟨fun _ => rfl, fun _ => rfl, fun _ _ => rfl⟩

/-- A request to the identity store changes nothing else. -/
theorem identity_of_env {request : IdentityOp} {reply : request.Reply}
    (henv : SiweWorld.env lower (.identity request) w reply w') :
    ∃ id clock, id ∉ w.ids ∧
      (reply, w'.directory) = Directory.answer id clock request w.directory := by
  obtain ⟨clock, draw, -, hfresh, hanswer⟩ := henv
  obtain rfl : w' = _ := congrArg Prod.snd hanswer
  refine ⟨draw.id, clock, hfresh, ?_⟩
  obtain rfl : reply = _ := congrArg Prod.fst hanswer
  rfl

/-- No operation puts the clock back. -/
theorem clock_le_of_env {op : SiweOp} {reply : op.Reply}
    (henv : SiweWorld.env lower op w reply w') : w.lockout.clock ≤ w'.lockout.clock := by
  obtain ⟨clock, draw, hclock, -, hanswer⟩ := henv
  obtain rfl : w' = _ := congrArg Prod.snd hanswer
  refine hclock.trans (Int.le_of_eq ?_)
  cases op with
  | createNonce record =>
      obtain ⟨message, heq⟩ | ⟨nonces, heq, -⟩ :=
        createNonce_cases (w.atTime clock) (record draw.id clock)
      · exact (congrArg (fun x => x.2.lockout.clock) heq).symm
      · exact (congrArg (fun x => x.2.lockout.clock) heq).symm
  | consumeNonce nonce =>
      obtain heq | ⟨row, -, -, -, nonces, heq, -⟩ := consumeNonce_cases (w.atTime clock) nonce
      · exact (congrArg (fun x => x.2.lockout.clock) heq).symm
      · exact (congrArg (fun x => x.2.lockout.clock) heq).symm
  | createWalletIdentity record =>
      obtain ⟨⟨message, heq⟩, -⟩ | ⟨wallets, wallet, heq⟩ :=
        createWalletIdentity_cases (w.atTime clock) (record draw.id clock)
      · exact (congrArg (fun x => x.2.lockout.clock) heq).symm
      · exact (congrArg (fun x => x.2.lockout.clock) heq).symm
  | lockout request =>
      change clock = (LockoutWorld.answer lower draw.id request (w.atTime clock).lockout).2.clock
      cases request with
      | createLockout candidate =>
          rw [LockoutWorld.answer, LockoutWorld.createLockout]
          split
          · rfl
          · rfl
      | unlock orgId userId unlockedBy reason =>
          rw [LockoutWorld.answer, LockoutWorld.unlock]
          split
          · rfl
          · rfl
      | _ => rfl
  | _ => rfl

theorem now_of_env {now : Int} (henv : SiweWorld.env lower (.lockout .now) w now w') :
    now = w'.lockout.clock := by
  obtain ⟨clock, draw, -, -, hanswer⟩ := henv
  obtain rfl : now = clock := congrArg Prod.fst hanswer
  obtain rfl : w' = _ := congrArg Prod.snd hanswer
  rfl

/-! ### Consumption of nonces -/

theorem consumed_of_env {nonce : String} {r : SiweNonceRecord}
    (henv : SiweWorld.env lower (.consumeNonce nonce) w (some r) w') :
    (∀ row ∈ w.nonces.rows, row.nonce = nonce → row.consumedAt = none) ∧ r.nonce = nonce ∧
      r.consumedAt = some w'.lockout.clock ∧ r ∈ w'.nonces.rows := by
  obtain ⟨clock, draw, -, -, hanswer⟩ := henv
  change (some r, w') = SiweWorld.consumeNonce _ nonce at hanswer
  obtain heq | ⟨row, hrow, hnonce, hopen, nonces, heq, hrows⟩ :=
    consumeNonce_cases (w.atTime clock) nonce
  · rw [heq] at hanswer
    cases hanswer
  · rw [heq] at hanswer
    cases hanswer
    refine ⟨fun row' hrow' hnonce' => ?_, hnonce, rfl, (hrows _).mpr (.inl rfl)⟩
    have hindex : row'.text = row.text := congrArg some (hnonce'.trans hnonce.symm)
    obtain rfl := w.nonces.unique row' hrow' row hrow _ hindex rfl
    exact hopen

/-- A consumed nonce stays as it is. -/
theorem mem_consumed_of_env {op : SiweOp} {reply : op.Reply}
    (henv : SiweWorld.env lower op w reply w') {r : SiweNonceRecord} (hmem : r ∈ w.nonces.rows)
    (hconsumed : r.consumedAt.isSome = true) (hproper : ∀ record, op = .createNonce record →
      ∀ id clock, (record id clock).nonceId = id) : r ∈ w'.nonces.rows := by
  cases op with
  | createNonce record =>
      obtain ⟨clock, draw, -, hfresh, hanswer⟩ := henv
      obtain rfl : w' = _ := congrArg Prod.snd hanswer
      change r ∈ (SiweWorld.createNonce _ (record draw.id clock)).2.nonces.rows
      obtain ⟨message, heq⟩ | ⟨nonces, heq, -, hrows⟩ :=
        createNonce_cases (w.atTime clock) (record draw.id clock)
      · rw [heq]
        exact hmem
      · rw [heq]
        refine (hrows r).mpr (.inr ⟨hmem, fun hid => hfresh ?_⟩)
        rw [hproper record rfl] at hid
        rw [← hid, SiweWorld.ids]
        simp only [List.mem_append]
        exact .inl (.inl (.inr (List.mem_map_of_mem hmem)))
  | consumeNonce nonce =>
      obtain ⟨clock, draw, -, -, hanswer⟩ := henv
      obtain rfl : w' = _ := congrArg Prod.snd hanswer
      change r ∈ (SiweWorld.consumeNonce _ nonce).2.nonces.rows
      obtain heq | ⟨row, hrow, hnonce, hopen, nonces, heq, hrows⟩ :=
        consumeNonce_cases (w.atTime clock) nonce
      · rw [heq]
        exact hmem
      · rw [heq]
        refine (hrows r).mpr (.inr ⟨hmem, fun hid => ?_⟩)
        obtain rfl := IndexedTable.eq_of_mem_rows hmem hrow hid
        rw [hopen] at hconsumed
        cases hconsumed
  | _ =>
      rw [(untouched_of_env henv).nonces nofun nofun]
      exact hmem

end CopilotRuntime.Siwe
