import CopilotRuntime.Audit.ChainSigner

/-!
# Tamper evidence of an audit chain

Records are signed one after another, each with the keys then in force. A list
of rows made from signatures of that history verifies only if it is the
beginning of the history; only its tail can be missing.

## Implementation notes

The keyed hash is assumed injective in its key and text, and never empty.
-/

namespace CopilotRuntime.Audit

open Foundation HashChain

/-! ### The signed envelope -/

def prevHashText (prevHash : Option Bytes) : List Char :=
  match prevHash with
  | none | some [] => "null".toList
  | some value => '"' :: hex value ++ ['"']

def envelopeText (keyVersion payload prevHash : List Char) : List Char :=
  '{' :: (fieldText ("key_version", keyVersion) ++ ',' ::
    (fieldText ("payload", payload) ++ ',' :: fieldText ("prev_hash", prevHash))) ++ ['}']

theorem dumps_prevHashValue (prevHash : Option Bytes) :
    dumps (prevHashValue prevHash) = some (prevHashText prevHash) := by
  cases prevHash with
  | none => rfl
  | some value =>
      cases value with
      | nil => rfl
      | cons b rest => exact congrArg some (quote_hex (b :: rest))

theorem sortFields_envelope {α : Type} (prevHash keyVersion payload : α) :
    sortFields [("prev_hash", prevHash), ("key_version", keyVersion), ("payload", payload)] =
      [("key_version", keyVersion), ("payload", payload), ("prev_hash", prevHash)] := by
  have hversion : "key_version" < "prev_hash" := by decide
  have hpayload : "payload" < "prev_hash" := by decide
  have hbetween : ¬ "payload" < "key_version" := by decide
  simp only [sortFields, List.foldl_cons, List.foldl_nil, insertField, if_pos hversion,
    if_pos hpayload, if_neg hbetween]

theorem objectText_envelope (prevHash keyVersion payload : List Char) :
    objectText [("prev_hash", prevHash), ("key_version", keyVersion), ("payload", payload)] =
      envelopeText keyVersion payload prevHash := by
  rw [objectText, sortFields_envelope]
  rfl

theorem canonicalize_eq (payload : AuditPayload) (prevHash : Option Bytes) (keyVersion : Int) :
    canonicalize payload prevHash keyVersion =
      (dumps (.obj payload)).map fun text =>
        envelopeText (intText keyVersion) text (prevHashText prevHash) := by
  have hversion : dumps (.int keyVersion) = some (intText keyVersion) := rfl
  have hnil : dumpsFields [] = some [] := rfl
  unfold canonicalize
  rw [dumps, dumpsFields, dumpsFields, dumpsFields, dumps_prevHashValue, hversion, hnil]
  cases dumps (.obj payload) with
  | none => rfl
  | some text => exact congrArg some (objectText_envelope _ _ _)

/-- A signature that is present and not empty. -/
def present (prevHash : Option Bytes) : Option Bytes :=
  match prevHash with
  | none | some [] => none
  | some value => some value

theorem prevHashText_eq (prevHash : Option Bytes) :
    prevHashText prevHash = match present prevHash with
      | none => "null".toList
      | some value => '"' :: hex value ++ ['"'] := by
  unfold prevHashText present
  split <;> rfl

/-- A null and a quoted text do not end alike. -/
theorem null_ne_quoted {a b x : List Char} (h : a ++ "null".toList = b ++ ('"' :: x ++ ['"'])) :
    False := by
  have hlast := congrArg List.getLast? h
  have hnull : "null".toList = ['n', 'u', 'l'] ++ ['l'] := rfl
  rw [hnull, ← List.append_assoc, ← List.append_assoc, List.getLast?_concat,
    List.getLast?_concat] at hlast
  exact absurd (Option.some.inj hlast) (by decide)

/-- A text that ends with a previous signature determines the signature and what is before it. -/
theorem append_prevHashText_inj {a b : List Char} {p q : Option Bytes}
    (h : a ++ prevHashText p = b ++ prevHashText q) : a = b ∧ present p = present q := by
  rw [prevHashText_eq, prevHashText_eq] at h
  cases hp : present p with
  | none =>
      cases hq : present q with
      | none =>
          rw [hp, hq] at h
          exact ⟨List.append_cancel_right h, rfl⟩
      | some w =>
          rw [hp, hq] at h
          exact (null_ne_quoted h).elim
  | some v =>
      cases hq : present q with
      | none =>
          rw [hp, hq] at h
          exact (null_ne_quoted h.symm).elim
      | some w =>
          rw [hp, hq] at h
          have hopen : a ++ '"' :: hex v = b ++ '"' :: hex w := by
            have hclosed : (a ++ '"' :: hex v) ++ ['"'] = (b ++ '"' :: hex w) ++ ['"'] := by
              simpa using h
            exact List.append_cancel_right hclosed
          -- Read from the back, the digits end at the opening quotation mark.
          have hback : (hex v).reverse ++ '"' :: a.reverse =
              (hex w).reverse ++ '"' :: b.reverse := by
            simpa using congrArg List.reverse hopen
          obtain ⟨hdigits, hrest⟩ := append_cons_inj
            (fun hmem => quoteMark_notMem_hex v (List.mem_reverse.mp hmem))
            (fun hmem => quoteMark_notMem_hex w (List.mem_reverse.mp hmem)) hback
          refine ⟨List.reverse_inj.mp hrest, ?_⟩
          rw [hex_inj (List.reverse_inj.mp hdigits)]

theorem envelopeText_inj {m n : Int} {a b : List Char} {p q : Option Bytes}
    (h : envelopeText (intText m) a (prevHashText p) = envelopeText (intText n) b (prevHashText q)) :
    m = n ∧ a = b ∧ present p = present q := by
  have hinner : quote "key_version" ++ ':' :: (intText m ++ ',' ::
        (fieldText ("payload", a) ++ ',' :: fieldText ("prev_hash", prevHashText p))) =
      quote "key_version" ++ ':' :: (intText n ++ ',' ::
        (fieldText ("payload", b) ++ ',' :: fieldText ("prev_hash", prevHashText q))) := by
    have hcancel := List.append_cancel_right (List.cons.inj h).2
    simpa only [fieldText, List.append_assoc, List.cons_append] using hcancel
  obtain ⟨hversion, hrest⟩ := append_cons_inj (comma_notMem_intText m) (comma_notMem_intText n)
    (List.cons.inj (List.append_cancel_left hinner)).2
  have htail : (fieldText ("payload", a) ++ ',' :: (quote "prev_hash" ++ [':'])) ++ prevHashText p =
      (fieldText ("payload", b) ++ ',' :: (quote "prev_hash" ++ [':'])) ++ prevHashText q := by
    simpa [fieldText] using hrest
  obtain ⟨hpayload, hprev⟩ := append_prevHashText_inj htail
  have hfield := List.append_cancel_right hpayload
  exact ⟨intText_inj hversion, (List.cons.inj (List.append_cancel_left hfield)).2, hprev⟩

theorem present_some {value : Bytes} (h : value ≠ []) : present (some value) = some value := by
  cases value with
  | nil => exact (h rfl).elim
  | cons b rest => rfl

/-! ### Signed histories -/

/-- A payload and the chain fields it was signed with. -/
structure SignedRecord where
  payload : AuditPayload
  chain : ChainSignature

/-- What a signature covers besides the signature before it. -/
structure SignedBody where
  keyVersion : Int
  payloadText : Option (List Char)

/-- A record or a row as an entry of a chain, its payload read as canonical text. -/
abbrev AuditLink := Link Bytes SignedBody

def SignedRecord.link (r : SignedRecord) : AuditLink where
  prev := r.chain.prevHash
  body := ⟨r.chain.keyVersion, dumps (.obj r.payload)⟩
  signature := r.chain.signature

def AuditChainRow.link (row : AuditChainRow) : AuditLink where
  prev := row.prevHash
  body := ⟨row.keyVersion, dumps (.obj row.payload)⟩
  signature := row.signature

section Chains
variable (hmac : Bytes → List Char → Bytes)

/-- Sign payloads one after another, each by the signer that is configured at the time. -/
def signAll : Option Bytes → List (AuditChainSigner × AuditPayload) → Option (List SignedRecord)
  | _, [] => some []
  | prevHash, (signer, payload) :: rest =>
      match signer.sign hmac prevHash payload with
      | none => none
      | some chain => (signAll (some chain.signature) rest).map (⟨payload, chain⟩ :: ·)

/-- The entry carries the keyed hash of its own envelope. -/
def Authentic (link : AuditLink) : Prop :=
  present link.prev = link.prev ∧ ∃ key text, link.body.payloadText = some text ∧
    hmac key (envelopeText (intText link.body.keyVersion) text (prevHashText link.prev)) =
      link.signature

variable {hmac}

/-- Under an injective keyed hash, a signature commits to the whole entry. -/
theorem commits_of_authentic
    (hinjective : ∀ key text key' text', hmac key text = hmac key' text' →
      key = key' ∧ text = text')
    {links others : List AuditLink} (hlinks : ∀ link ∈ links, Authentic hmac link)
    (hothers : ∀ other ∈ others, Authentic hmac other) : Commits links others := by
  intro link hlink other hother hsignature
  obtain ⟨hpresent, key, text, htext, hmade⟩ := hlinks link hlink
  obtain ⟨hpresent', key', text', htext', hmade'⟩ := hothers other hother
  have hsame : hmac key (envelopeText (intText link.body.keyVersion) text (prevHashText link.prev)) =
      hmac key' (envelopeText (intText other.body.keyVersion) text' (prevHashText other.prev)) := by
    rw [hmade, hmade', hsignature]
  obtain ⟨hversion, htexts, hprev⟩ := envelopeText_inj (hinjective _ _ _ _ hsame).2
  rw [hpresent, hpresent'] at hprev
  obtain ⟨prev, ⟨version, payloadText⟩, signature⟩ := link
  obtain ⟨prev', ⟨version', payloadText'⟩, signature'⟩ := other
  simp only at hversion htext htext' hprev hsignature
  rw [hversion, hprev, hsignature, htext, htext', htexts]

theorem sign_eq {signer : AuditChainSigner} {prevHash : Option Bytes} {payload : AuditPayload}
    {chain : ChainSignature} (h : signer.sign hmac prevHash payload = some chain) :
    chain.prevHash = prevHash ∧ chain.keyVersion = signer.activeVersion ∧
      ∃ text, dumps (.obj payload) = some text ∧
        chain.signature = hmac ((signer.keys.get? signer.activeVersion).get signer.activeKey)
          (envelopeText (intText signer.activeVersion) text (prevHashText prevHash)) := by
  unfold AuditChainSigner.sign at h
  rw [canonicalize_eq] at h
  cases htext : dumps (.obj payload) with
  | none =>
      rw [htext] at h
      cases h
  | some text =>
      rw [htext] at h
      obtain rfl := Option.some.inj h
      exact ⟨rfl, rfl, text, rfl, rfl⟩

theorem authentic_signed {signer : AuditChainSigner} {prevHash : Option Bytes}
    {payload : AuditPayload} {chain : ChainSignature} (hpresent : present prevHash = prevHash)
    (h : signer.sign hmac prevHash payload = some chain) :
    Authentic hmac (SignedRecord.link ⟨payload, chain⟩) := by
  obtain ⟨hprev, hversion, text, htext, hsignature⟩ := sign_eq h
  refine ⟨?_, (signer.keys.get? signer.activeVersion).get signer.activeKey, text, htext, ?_⟩
  · simp only [SignedRecord.link, hprev, hpresent]
  · simp only [SignedRecord.link, hprev, hversion]
    exact hsignature.symm

section Nonempty
variable (hnonempty : ∀ key text, hmac key text ≠ [])
include hnonempty

/-- A signed history is linked and every entry of it is authentic. -/
theorem linkedFrom_signAll {prevHash : Option Bytes}
    {records : List (AuditChainSigner × AuditPayload)} {history : List SignedRecord}
    (hpresent : present prevHash = prevHash) (h : signAll hmac prevHash records = some history) :
    LinkedFrom prevHash (history.map SignedRecord.link) ∧
      ∀ link ∈ history.map SignedRecord.link, Authentic hmac link := by
  induction records generalizing prevHash history with
  | nil =>
      obtain rfl := Option.some.inj h
      exact ⟨trivial, by simp⟩
  | cons record rest ih =>
      obtain ⟨signer, payload⟩ := record
      rw [signAll] at h
      cases hsign : signer.sign hmac prevHash payload with
      | none =>
          rw [hsign] at h
          cases h
      | some chain =>
          rw [hsign] at h
          obtain ⟨later, hlater, rfl⟩ := Option.map_eq_some_iff.mp h
          obtain ⟨hprev, _, text, _, hsignature⟩ := sign_eq hsign
          obtain ⟨hlinked, hauthentic⟩ :=
            ih (present_some (hsignature ▸ hnonempty _ _)) hlater
          refine ⟨⟨hprev, hlinked⟩, ?_⟩
          exact List.forall_mem_cons.mpr ⟨authentic_signed hpresent hsign, hauthentic⟩

/-- A row that verifies is authentic. -/
theorem authentic_verified {verifier : AuditChainSigner} {row : AuditChainRow}
    (hpresent : present row.prevHash = row.prevHash)
    (h : verifier.verifyRow hmac row.prevHash row.payload row.signature row.keyVersion = some true) :
    Authentic hmac row.link ∧ row.signature ≠ [] := by
  unfold AuditChainSigner.verifyRow at h
  split at h
  · cases h
  · next key hkey =>
      rw [canonicalize_eq] at h
      obtain ⟨canonical, hcanonical, hequal⟩ := Option.map_eq_some_iff.mp h
      obtain ⟨text, htext, rfl⟩ := Option.map_eq_some_iff.mp hcanonical
      have hsignature := beq_iff_eq.mp hequal
      exact ⟨⟨hpresent, key, text, htext, hsignature⟩, hsignature ▸ hnonempty _ _⟩

/-- Rows that verify are linked and authentic. -/
theorem linkedFrom_verified {verifier : AuditChainSigner} {prevHash : Option Bytes}
    {rows : List AuditChainRow} {result : ChainVerificationResult}
    (hpresent : present prevHash = prevHash)
    (h : verifier.verifyFrom hmac prevHash rows = some result) (hok : result.ok = true) :
    LinkedFrom prevHash (rows.map AuditChainRow.link) ∧
      ∀ link ∈ rows.map AuditChainRow.link, Authentic hmac link := by
  induction rows generalizing prevHash with
  | nil => exact ⟨trivial, by simp⟩
  | cons row rest ih =>
      rw [AuditChainSigner.verifyFrom] at h
      split at h
      · obtain rfl := Option.some.inj h
        cases hok
      · next hlink =>
          have hprev : row.prevHash = prevHash := not_not.mp hlink
          cases hrow : verifier.verifyRow hmac row.prevHash row.payload row.signature
              row.keyVersion with
          | none =>
              rw [hrow] at h
              cases h
          | some verified =>
              rw [hrow] at h
              cases verified with
              | false =>
                  obtain rfl := Option.some.inj h
                  cases hok
              | true =>
                  obtain ⟨hauthentic, hsigned⟩ :=
                    authentic_verified hnonempty (by rw [hprev, hpresent]) hrow
                  obtain ⟨hlinked, hrest⟩ := ih (present_some hsigned) h
                  exact ⟨⟨hprev, hlinked⟩, List.forall_mem_cons.mpr ⟨hauthentic, hrest⟩⟩

end Nonempty

/-- Rows made from signatures of a signed history verify only if they begin that history. -/
theorem verified_rows_begin_history
    (hinjective : ∀ key text key' text', hmac key text = hmac key' text' →
      key = key' ∧ text = text')
    (hnonempty : ∀ key text, hmac key text ≠ [])
    {records : List (AuditChainSigner × AuditPayload)} {history : List SignedRecord}
    (hhistory : signAll hmac none records = some history) {verifier : AuditChainSigner}
    {rows : List AuditChainRow}
    (hrows : ∀ row ∈ rows, row.signature ∈ history.map fun r => r.chain.signature)
    {result : ChainVerificationResult} (hverified : verifier.verifyChain hmac rows = some result)
    (hok : result.ok = true) :
    rows.map AuditChainRow.link <+: history.map SignedRecord.link := by
  obtain ⟨hlinked, hauthentic⟩ := linkedFrom_signAll hnonempty rfl hhistory
  obtain ⟨hchain, hgenuine⟩ := linkedFrom_verified hnonempty rfl hverified hok
  refine isPrefix_of_commits hlinked (commits_of_authentic hinjective hauthentic hauthentic) hchain
    (commits_of_authentic hinjective hgenuine hauthentic) ?_
  intro link hlink
  obtain ⟨row, hrow, rfl⟩ := List.mem_map.mp hlink
  have hknown := hrows row hrow
  rw [List.map_map]
  exact hknown

end Chains

/-! ### A rotated key and a truncated export -/

namespace Sample

/-- An injective stand-in for the keyed hash: the key's bytes marked, then the text. -/
def hmac (key : Bytes) (text : List Char) : Bytes :=
  key.flatMap (fun b => [1, b]) ++ 0 :: text.flatMap fun c =>
    [UInt8.ofNat (c.toNat % 256), UInt8.ofNat (c.toNat / 256 % 256),
      UInt8.ofNat (c.toNat / 65536 % 256), UInt8.ofNat (c.toNat / 16777216)]

theorem hmac_nonempty (key : Bytes) (text : List Char) : hmac key text ≠ [] := by
  simp [hmac]

theorem hmac_injective (key : Bytes) (text : List Char) (key' : Bytes) (text' : List Char)
    (h : hmac key text = hmac key' text') : key = key' ∧ text = text' := by
  induction key generalizing key' with
  | cons b rest ih =>
      cases key' with
      | nil => simp [hmac] at h
      | cons b' rest' =>
          simp only [hmac, List.flatMap_cons, List.cons_append, List.nil_append, List.cons.injEq,
            true_and] at h
          obtain ⟨hkey, htext⟩ := ih rest' h.2
          exact ⟨by rw [h.1, hkey], htext⟩
  | nil =>
      cases key' with
      | cons b' rest' => simp [hmac] at h
      | nil =>
          refine ⟨rfl, ?_⟩
          replace h := (List.cons.inj h).2
          induction text generalizing text' with
          | nil =>
              cases text' with
              | nil => rfl
              | cons c' more' => simp at h
          | cons c more ih =>
              cases text' with
              | nil => simp at h
              | cons c' more' =>
                  simp only [List.flatMap_cons, List.cons_append, List.nil_append,
                    List.cons.injEq] at h
                  obtain ⟨hlow, hmiddle, hhigh, htop, hmore⟩ := h
                  rw [ih more' hmore]
                  have hc : c.toNat < 2 ^ 32 := c.val.toNat_lt
                  have hc' : c'.toNat < 2 ^ 32 := c'.val.toNat_lt
                  have hcode : c.toNat = c'.toNat := by
                    simp only [← UInt8.toNat_inj, UInt8.toNat_ofNat'] at hlow hmiddle hhigh htop
                    omega
                  rw [Char.toNat_inj.mp hcode]

def oldKey : Bytes := List.replicate 16 7
def newKey : Bytes := List.replicate 16 9

/-- Before the rotation only the old key is known. -/
def oldSigner : AuditChainSigner where
  keys := Dict.empty.set 1 oldKey
  activeVersion := 1
  activeKey := rfl
  longEnough := by
    intro version key h
    rw [Dict.get?_set] at h
    split at h
    · obtain rfl := Option.some.inj h
      decide
    · cases h

/-- After it the new key signs and the old one still verifies. -/
def newSigner : AuditChainSigner where
  keys := (Dict.empty.set 2 newKey).set 1 oldKey
  activeVersion := 2
  activeKey := rfl
  longEnough := by
    intro version key h
    rw [Dict.get?_set] at h
    split at h
    · obtain rfl := Option.some.inj h
      decide
    · rw [Dict.get?_set] at h
      split at h
      · obtain rfl := Option.some.inj h
        decide
      · cases h

def records : List (AuditChainSigner × AuditPayload) :=
  [(oldSigner, [("action", .str "share"), ("at", .datetime "2026-01-01T00:00:00+00:00")]),
    (newSigner, [("action", .str "revoke"), ("digest", .bytes [1, 255])])]

def history : List SignedRecord := (signAll hmac none records).getD []

/-- The export lost its last record, and its field order. -/
def rows : List AuditChainRow :=
  (history.take 1).map fun r =>
    { seq := 1
      payload := r.payload.reverse
      prevHash := r.chain.prevHash
      signature := r.chain.signature
      keyVersion := r.chain.keyVersion }

end Sample

def Sample.rowFacts :
    PLift (Sample.newSigner.verifyChain Sample.hmac Sample.rows = some ⟨true, none, none⟩ ∧
      ∀ row ∈ Sample.rows, row.signature ∈ Sample.history.map fun r => r.chain.signature) :=
  ⟨by decide +kernel⟩

theorem verified_rows_begin_history_sample :
    (Sample.rows.map AuditChainRow.link) <+: (Sample.history.map SignedRecord.link) := by
  have hsigned : (signAll Sample.hmac none Sample.records).isSome = true := by decide
  have hhistory : signAll Sample.hmac none Sample.records = some Sample.history := by
    obtain ⟨found, hfound⟩ := Option.isSome_iff_exists.mp hsigned
    rw [Sample.history, hfound]
    rfl
  obtain ⟨hverified, hrows⟩ := Sample.rowFacts.down
  exact verified_rows_begin_history Sample.hmac_injective Sample.hmac_nonempty hhistory hrows
    hverified rfl

end CopilotRuntime.Audit
