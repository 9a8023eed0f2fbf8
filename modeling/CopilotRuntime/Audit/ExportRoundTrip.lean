import CopilotRuntime.Audit.AuditLog
import CopilotRuntime.Audit.CanonicalText

/-!
# Verifying an exported audit log

The verifier recomputes the payload of a row from its exported fields. It is
the signed payload for exactly the records whose event type comes back under
the name the manifest reads it by; only then does the export verify.
-/

namespace CopilotRuntime.Audit

open Foundation HashChain

/-! ### Payloads that differ in the event type -/

variable {name : String} {texts : List (String × List Char)}

theorem dumpsFields_cons {value : AuditValue} {rest : AuditPayload} :
    dumpsFields ((name, value) :: rest) = some texts ↔
      ∃ text more, dumps value = some text ∧ dumpsFields rest = some more ∧
        texts = (name, text) :: more := by
  rw [dumpsFields]
  cases dumps value with
  | none => simp
  | some text =>
      cases dumpsFields rest with
      | none => simp
      | some more => simp [eq_comm]

variable {fields : AuditPayload}

theorem dumpsFields_names (h : dumpsFields fields = some texts) :
    texts.map Prod.fst = fields.map Prod.fst := by
  induction fields generalizing texts with
  | nil =>
      obtain rfl := Option.some.inj h
      rfl
  | cons field rest ih =>
      obtain ⟨name, value⟩ := field
      obtain ⟨text, more, _, hmore, rfl⟩ := dumpsFields_cons.mp h
      rw [List.map_cons, List.map_cons, ih hmore]

/-- Writing another value into a field changes its text only. -/
theorem dumpsFields_setEntries {value other : AuditValue} {text : List Char}
    (h : dumpsFields (setEntries fields name value) = some texts)
    (htext : dumps other = some text) :
    dumpsFields (setEntries fields name other) = some (setEntries texts name text) := by
  induction fields generalizing texts with
  | nil =>
      obtain ⟨_, _, _, hmore, rfl⟩ := dumpsFields_cons.mp h
      obtain rfl := Option.some.inj hmore
      simp [setEntries, dumpsFields, htext]
  | cons field rest ih =>
      obtain ⟨key, first⟩ := field
      by_cases hk : key = name
      · rw [setEntries, if_pos hk] at h
        obtain ⟨_, more, _, hmore, rfl⟩ := dumpsFields_cons.mp h
        rw [setEntries, if_pos hk, setEntries, if_pos rfl]
        exact dumpsFields_cons.mpr ⟨text, more, htext, hmore, rfl⟩
      · rw [setEntries, if_neg hk] at h
        obtain ⟨head, more, hhead, hmore, rfl⟩ := dumpsFields_cons.mp h
        rw [setEntries, if_neg hk, setEntries, if_neg hk]
        exact dumpsFields_cons.mpr ⟨head, _, hhead, ih hmore, rfl⟩

theorem dumpsFields_filter (h : dumpsFields fields = some texts) (p : String → Bool) :
    dumpsFields (fields.filter fun f => p f.1) = some (texts.filter fun f => p f.1) := by
  induction fields generalizing texts with
  | nil =>
      obtain rfl := Option.some.inj h
      rfl
  | cons field rest ih =>
      obtain ⟨name, value⟩ := field
      obtain ⟨text, more, htext, hmore, rfl⟩ := dumpsFields_cons.mp h
      rw [List.filter_cons, List.filter_cons]
      cases hp : p name with
      | false => simpa [hp] using ih hmore
      | true =>
          simp only [if_true]
          exact dumpsFields_cons.mpr ⟨text, _, htext, ih hmore, rfl⟩

/-- Payloads that differ in one text field, and in fields after it that one of them lacks, have the
same canonical text only if they are the same. -/
theorem dumps_payload_inj (hnodup : (fields.map Prod.fst).Nodup) {p : String → Bool}
    (hp : ∀ other, p other = false → name < other) {a b : String} {text : List Char}
    (hsigned : dumps (.obj (setEntries fields name (.str a))) = some text)
    (hverified : dumps (.obj ((setEntries fields name (.str b)).filter fun f => p f.1)) = some text) :
    a = b ∧ ∀ field ∈ fields, p field.1 = true := by
  obtain ⟨texts, htexts, rfl⟩ := Option.map_eq_some_iff.mp hsigned
  have hnames : texts.map Prod.fst = (setEntries fields name (.str a)).map Prod.fst :=
    dumpsFields_names htexts
  have hsame : setEntries texts name (quote a) = texts := by
    have hagain := dumpsFields_setEntries htexts (rfl : dumps (.str a) = some (quote a))
    rw [htexts] at hagain
    exact (Option.some.inj hagain).symm
  have hother := dumpsFields_filter
    (dumpsFields_setEntries htexts (rfl : dumps (.str b) = some (quote b))) p
  rw [dumps, hother] at hverified
  have hequal : objectText (setEntries texts name (quote a)) =
      objectText ((setEntries texts name (quote b)).filter fun f => p f.1) := by
    rw [hsame]
    exact (Option.some.inj hverified).symm
  have htextNodup : (texts.map Prod.fst).Nodup := by
    rw [hnames]
    exact nodup_setEntries hnodup name _
  obtain ⟨hab, hall⟩ := objectText_inj htextNodup hp hequal
  refine ⟨hab, fun field hfield => ?_⟩
  have hin : field.1 ∈ texts.map Prod.fst := by
    rw [hnames, keys_setEntries]
    have hkey : field.1 ∈ fields.map Prod.fst := List.mem_map_of_mem hfield
    split
    · exact hkey
    · exact List.mem_append_left _ hkey
  obtain ⟨written, hwritten, hname⟩ := List.mem_map.mp hin
  rw [← hname]
  exact hall written hwritten

/-! ### The exported fields of a record -/

section Rows
variable (textOf : AuditValue → String) {eventType : String} {record : AuditRecord} {seq : Nat}
  {chain : ChainSignature}

/-- The event type comes back from the export under the name the manifest reads. -/
def EventTypeSurvives (adapter : Adapter) (eventType : String) (record : AuditRecord) : Prop :=
  match adapter with
  | .inMemory => eventType = "" ∧ record.get? "event_type" = none
  | .file => ∀ value, record.get? "event_type" = some value →
      value = .str eventType ∨ (∀ s, value ≠ .str s) ∧ textOf value = eventType

theorem get?_chained {name : String} (h : name ∉ chainFields) :
    (chained record seq chain).get? name = record.get? name := by
  simp only [chainFields, List.mem_cons, List.not_mem_nil, or_false, not_or] at h
  obtain ⟨hseq, hprev, hsignature, hversion⟩ := h
  rw [chained, Dict.get?_set_of_ne _ _ (Ne.symm hversion),
    Dict.get?_set_of_ne _ _ (Ne.symm hsignature), Dict.get?_set_of_ne _ _ (Ne.symm hprev),
    Dict.get?_set_of_ne _ _ (Ne.symm hseq)]

/-- A chain field of an exported row is the one that was signed. -/
theorem get?_exportRow {adapter : Adapter} {name : String} (h : name ≠ "event_type") :
    (adapter.exportRow (eventType, record)).get? name = record.get? name := by
  cases adapter with
  | inMemory => rfl
  | file =>
      rw [Adapter.exportRow, Dict.get?_update, Dict.get?_set_of_ne _ _ (Ne.symm h),
        Dict.get?_empty, Option.or_none]

variable (adapter : Adapter)

theorem rowEventType_exportRow :
    rowEventType textOf (adapter.exportRow (eventType, chained record seq chain)) =
      match record.get? "event_type" with
      | some (.str text) => text
      | some value => textOf value
      | none => match adapter with
        | .inMemory => ""
        | .file => eventType := by
  have hfield : (chained record seq chain).get? "event_type" = record.get? "event_type" :=
    get?_chained (by decide)
  unfold rowEventType
  cases adapter with
  | inMemory =>
      rw [Adapter.exportRow, hfield]
      cases record.get? "event_type" with
      | none => rfl
      | some value => cases value <;> rfl
  | file =>
      rw [Adapter.exportRow, Dict.get?_update, hfield, Dict.get?_set_self]
      cases record.get? "event_type" with
      | none => rfl
      | some value => cases value <;> rfl

/-- The fields that are signed whatever the adapter come back as they were written. -/
theorem filter_exportRow :
    (adapter.exportRow (eventType, chained record seq chain)).entries.filter
        (fun f => !manifestChainFields.contains f.1) =
      record.entries.filter fun f => !manifestChainFields.contains f.1 := by
  have hchained : (chained record seq chain).entries.filter
      (fun f => !manifestChainFields.contains f.1) =
        record.entries.filter fun f => !manifestChainFields.contains f.1 := by
    have hset (d : AuditRecord) (name : String) (value : AuditValue)
        (hname : (!manifestChainFields.contains name) = false) :
        (d.set name value).entries.filter (fun f => !manifestChainFields.contains f.1) =
          d.entries.filter fun f => !manifestChainFields.contains f.1 :=
      Dict.filter_setEntries_of_neg (p := fun name => !manifestChainFields.contains name) hname
        d.entries value
    rw [chained, hset _ _ _ (by decide), hset _ _ _ (by decide), hset _ _ _ (by decide),
      hset _ _ _ (by decide)]
  cases adapter with
  | inMemory => exact hchained
  | file =>
      have hupdate := Dict.filter_update (p := fun name => !manifestChainFields.contains name)
        (d := Dict.empty.set "event_type" (.str eventType)) rfl (chained record seq chain)
      exact hupdate.trans hchained

/-- The verifier recomputes the signed fields under the event type it reads from the row. -/
theorem verifiedPayload_exportRow :
    verifiedPayload textOf (adapter.exportRow (eventType, chained record seq chain)) =
      signable manifestChainFields
        (rowEventType textOf (adapter.exportRow (eventType, chained record seq chain))) record := by
  rw [verifiedPayload, AuditManifest.signingPayload, signable, filter_exportRow]
  rfl

/-- The names a manifest payload keeps of an adapter's payload. -/
def keptName : Adapter → String → Bool
  | .inMemory, name => decide (name ≠ "event_type")
  | .file, _ => true

/-- The fields an adapter leaves out of what it signs. -/
def strippedFields : Adapter → List String
  | .inMemory => chainFields
  | .file => manifestChainFields

theorem signable_manifest_eq (other : String) :
    signable manifestChainFields other record =
      (setEntries (record.entries.filter fun f => !(strippedFields adapter).contains f.1) eventTypeMarker (.str other)).filter
          fun f => keptName adapter f.1 := by
  cases adapter with
  | file => simp [signable, keptName, strippedFields]
  | inMemory =>
      have hmarker : keptName .inMemory eventTypeMarker = true := by decide
      rw [Dict.filter_setEntries_of_pos hmarker, List.filter_filter, signable]
      congr 2
      funext field
      simp [manifestChainFields, keptName, strippedFields, Bool.and_comm]

theorem signingPayload_eq :
    adapter.signingPayload eventType record =
      setEntries (record.entries.filter fun f => !(strippedFields adapter).contains f.1) eventTypeMarker (.str eventType) := by
  cases adapter <;> rfl

/-- A row is verified over the signed text exactly if its event type survives the export. -/
theorem dumps_verifiedPayload_iff {adapter : Adapter} {text : List Char}
    (hsigned : dumps (.obj (adapter.signingPayload eventType record)) = some text) :
    dumps (.obj (verifiedPayload textOf
        (adapter.exportRow (eventType, chained record seq chain)))) = some text ↔
      EventTypeSurvives textOf adapter eventType record := by
  have hread : rowEventType textOf (adapter.exportRow (eventType, chained record seq chain)) = _ :=
    rowEventType_exportRow textOf adapter
  rw [verifiedPayload_exportRow, signable_manifest_eq adapter]
  rw [signingPayload_eq] at hsigned
  constructor
  · intro hverified
    have hnodup : ((record.entries.filter fun f =>
        !(strippedFields adapter).contains f.1).map Prod.fst).Nodup :=
      record.keys_nodup.sublist (List.filter_sublist.map Prod.fst)
    have hafter : ∀ other, keptName adapter other = false → eventTypeMarker < other := by
      intro other hother
      cases adapter with
      | file => cases hother
      | inMemory =>
          obtain rfl : other = "event_type" := by simpa [keptName] using hother
          decide
    obtain ⟨hsame, hkept⟩ := dumps_payload_inj hnodup hafter hsigned hverified
    rw [hread] at hsame
    cases adapter with
    | inMemory =>
        have hnone : record.get? "event_type" = none := by
          by_contra hsome
          obtain ⟨value, hvalue⟩ := Option.ne_none_iff_exists'.mp hsome
          have hmem : ("event_type", value) ∈ record.entries :=
            (lookupEntries_eq_some_iff record.keys_nodup).mp hvalue
          have hfield := hkept _ (List.mem_filter.mpr ⟨hmem, by simp [strippedFields, chainFields]⟩)
          simp [keptName] at hfield
        rw [hnone] at hsame
        exact ⟨hsame, hnone⟩
    | file =>
        intro value hvalue
        rw [hvalue] at hsame
        cases value <;> simp_all
  · intro hsurvives
    have hsame : rowEventType textOf (adapter.exportRow (eventType, chained record seq chain)) =
        eventType := by
      rw [hread]
      cases adapter with
      | inMemory =>
          rw [hsurvives.2]
          exact hsurvives.1.symm
      | file =>
          cases hfield : record.get? "event_type" with
          | none => rfl
          | some value =>
              have hvalue := hsurvives value hfield
              cases value <;> simp_all
    have hall : ((setEntries (record.entries.filter fun f =>
        !(strippedFields adapter).contains f.1) eventTypeMarker (.str eventType)).filter
          fun f => keptName adapter f.1) =
        setEntries (record.entries.filter fun f =>
          !(strippedFields adapter).contains f.1) eventTypeMarker (.str eventType) := by
      cases adapter with
      | file => simp [keptName]
      | inMemory =>
          have hmarker : keptName .inMemory eventTypeMarker = true := by decide
          rw [Dict.filter_setEntries_of_pos hmarker, List.filter_eq_self.mpr]
          intro field hfield
          have hmem := (List.mem_filter.mp hfield).1
          have hne : field.1 ≠ "event_type" := by
            intro hname
            have hstored : record.get? "event_type" = some field.2 :=
              (lookupEntries_eq_some_iff record.keys_nodup).mpr (hname ▸ hmem)
            rw [hsurvives.2] at hstored
            cases hstored
          simpa [keptName] using hne
    rw [hsame, hall, hsigned]

end Rows

/-! ### Reading an exported row -/

theorem hexDigit_readable : ∀ n < 16, Text.isHex (Json.hexDigit n) = true ∧
    ((Json.hexDigit n).val == 32 ||
      (9 ≤ (Json.hexDigit n).val && (Json.hexDigit n).val ≤ 13)) = false := by decide

theorem fromHex_hex (value : Bytes) : fromHex (hex value) = some value := by
  induction value with
  | nil => rfl
  | cons b rest ih =>
      have hb : b.toNat < 256 := b.toNat_lt
      have hhigh := hexDigit_readable (b.toNat / 16) (by omega)
      have hlow := hexDigit_readable (b.toNat % 16) (by omega)
      have hcons : hex (b :: rest) =
          Json.hexDigit (b.toNat / 16) :: Json.hexDigit (b.toNat % 16) :: hex rest := by
        simp [hex]
      have hbyte : UInt8.ofNat (16 * (b.toNat / 16) + b.toNat % 16) = b := by
        rw [Nat.div_add_mod]
        exact UInt8.ofNat_toNat
      rw [hcons, fromHex, hhigh.2, hhigh.1, hlow.1, ih, hexValue_hexDigit _ (by omega),
        hexValue_hexDigit _ (by omega), hbyte]
      rfl

section Reading
variable (textOf : AuditValue → String) {eventType : String} {record : AuditRecord} {seq : Nat}
  {chain : ChainSignature}

/-- The chain fields of an exported row are the ones that were signed. -/
theorem toRow_exportRow (adapter : Adapter) :
    toRow textOf (adapter.exportRow (eventType, chained record seq chain)) =
      some ⟨seq, verifiedPayload textOf (adapter.exportRow (eventType, chained record seq chain)),
        present chain.prevHash, chain.signature, chain.keyVersion⟩ := by
  have hseq : (adapter.exportRow (eventType, chained record seq chain)).get? "seq" =
      some (.int seq) := by
    rw [get?_exportRow (by decide), chained]
    simp [Dict.get?_set]
  have hprev : (adapter.exportRow (eventType, chained record seq chain)).get? "prev_hash" =
      some (prevHashValue chain.prevHash) := by
    rw [get?_exportRow (by decide), chained]
    simp [Dict.get?_set]
  have hsignature : (adapter.exportRow (eventType, chained record seq chain)).get? "signature" =
      some (.str (hexText chain.signature)) := by
    rw [get?_exportRow (by decide), chained]
    simp [Dict.get?_set]
  have hversion : (adapter.exportRow (eventType, chained record seq chain)).get? "key_version" =
      some (.int chain.keyVersion) := by
    rw [get?_exportRow (by decide), chained]
    simp
  have hread (value : Bytes) : fromHex (hexText value).toList = some value := by
    rw [hexText, String.toList_ofList, fromHex_hex]
  unfold toRow integerField
  simp only [hseq, hprev, hsignature, hversion, hread]
  cases chain.prevHash with
  | none => rfl
  | some value =>
      cases value with
      | nil => rfl
      | cons b rest =>
          simp [prevHashValue, present, fromHex_hex]

theorem orgOf_exportRow (adapter : Adapter) :
    orgOf textOf (adapter.exportRow (eventType, chained record seq chain)) = orgOf textOf record := by
  unfold orgOf
  rw [get?_exportRow (by decide), get?_chained (by decide)]

end Reading

/-! ### Verifying the chain of one organisation -/

theorem insertRow_of_le {row : AuditChainRow} {rows : List AuditChainRow}
    (h : ∀ other ∈ rows, other.seq ≤ row.seq) : insertRow row rows = rows ++ [row] := by
  induction rows with
  | nil => rfl
  | cons other rest ih =>
      have hother : ¬ row.seq < other.seq := not_lt.mpr (h other List.mem_cons_self)
      rw [insertRow, if_neg hother, ih fun r hr => h r (List.mem_cons_of_mem _ hr)]
      rfl

/-- Rows already in order stay as they are. -/
theorem sortRows_of_ordered {rows : List AuditChainRow}
    (h : rows.Pairwise fun a b => a.seq ≤ b.seq) : sortRows rows = rows := by
  induction rows using List.reverseRecOn with
  | nil => rfl
  | append_singleton front row ih =>
      obtain ⟨hfront, _, hrow⟩ := List.pairwise_append.mp h
      have hsorted : sortRows (front ++ [row]) = insertRow row (sortRows front) := by
        rw [sortRows, List.foldl_append]
        rfl
      rw [hsorted, ih hfront, insertRow_of_le fun r hr => hrow r hr row (List.mem_singleton.mpr rfl)]

section Chains
variable {hmac : Bytes → List Char → Bytes} {signer : AuditChainSigner}

variable {rows : List AuditChainRow}

theorem verifyFrom_of_linked {prevHash : Option Bytes}
    (hlinked : LinkedFrom prevHash (rows.map AuditChainRow.link)) (hrows : ∀ row ∈ rows,
      signer.verifyRow hmac row.prevHash row.payload row.signature row.keyVersion = some true) :
    signer.verifyFrom hmac prevHash rows = some ⟨true, none, none⟩ := by
  induction rows generalizing prevHash with
  | nil => rfl
  | cons row rest ih =>
      have hprev : row.prevHash = prevHash := hlinked.1
      rw [AuditChainSigner.verifyFrom, if_neg (not_not.mpr hprev), hrows row List.mem_cons_self]
      exact ih hlinked.2 fun r hr => hrows r (List.mem_cons_of_mem _ hr)

/-- A row over the signed text verifies with the key that signed it. -/
theorem verifyRow_signed {prevHash : Option Bytes} {payload verified : AuditPayload}
    {chain : ChainSignature} (hsign : signer.sign hmac prevHash payload = some chain)
    (hsame : dumps (.obj verified) = dumps (.obj payload)) :
    signer.verifyRow hmac prevHash verified chain.signature chain.keyVersion = some true := by
  obtain ⟨_, hversion, text, htext, hsignature⟩ := sign_eq hsign
  obtain ⟨key, hkey⟩ := Option.isSome_iff_exists.mp signer.activeKey
  have hactive : (signer.keys.get? signer.activeVersion).get signer.activeKey = key := by
    simp [hkey]
  unfold AuditChainSigner.verifyRow
  rw [hversion, hkey]
  simp only [canonicalize_eq, hsame, htext, Option.map_some]
  rw [hsignature, hactive]
  simp

/-- The exported rows of one organisation. -/
def orgRows (textOf : AuditValue → String) (adapter : Adapter) (log : AuditLog) (org : String) :
    List AuditRecord :=
  (log.auditLog.map adapter.exportRow).filter fun row => orgOf textOf row = org

/-- The rows of an organisation, read back, are the chain its head and count stand for. -/
structure ChainOf (hmac : Bytes → List Char → Bytes) (textOf : AuditValue → String)
    (adapter : Adapter) (signer : AuditChainSigner) (log : AuditLog) (org : String)
    (rows : List AuditChainRow) : Prop where
  read : (orgRows textOf adapter log org).mapM (toRow textOf) = some rows
  linked : LinkedFrom none (rows.map AuditChainRow.link)
  verified : ∀ row ∈ rows,
    signer.verifyRow hmac row.prevHash row.payload row.signature row.keyVersion = some true
  head : log.chainHeads.get? org = lastSignature (rows.map AuditChainRow.link)
  present : present (log.chainHeads.get? org) = log.chainHeads.get? org
  count : (log.chainCounts.get? org).getD 0 = rows.length
  ordered : rows.Pairwise fun a b => a.seq ≤ b.seq
  numbered : ∀ row ∈ rows, row.seq ≤ rows.length

variable {textOf : AuditValue → String} {adapter : Adapter}

theorem chainOf_empty (org : String) :
    ChainOf hmac textOf adapter signer AuditLog.empty org [] where
  read := rfl
  linked := trivial
  verified := by simp
  head := rfl
  present := rfl
  count := rfl
  ordered := List.Pairwise.nil
  numbered := by simp

variable {log : AuditLog}

/-- The rows of an organisation verify as one chain. -/
theorem ChainOf.verifyRows_eq {org : String} (h : ChainOf hmac textOf adapter signer log org rows) :
    verifyRows hmac textOf signer (orgRows textOf adapter log org) = some ⟨true, none, none⟩ := by
  rw [verifyRows, h.read]
  simp only
  rw [sortRows_of_ordered h.ordered]
  exact verifyFrom_of_linked h.linked h.verified

/-- What a returned write appends. -/
theorem writeAuditLog_cases {next : AuditLog} {eventType : String} {record : AuditRecord}
    (h : log.writeAuditLog hmac textOf adapter signer eventType record = some next) :
    ∃ chain seq, signer.sign hmac (log.chainHeads.get? (orgOf textOf record))
        (adapter.signingPayload eventType record) = some chain ∧
      seq = (log.chainCounts.get? (orgOf textOf record)).getD 0 + 1 ∧
      next.auditLog = log.auditLog ++ [(eventType, chained record seq chain)] ∧
      next.chainHeads = log.chainHeads.set (orgOf textOf record) chain.signature ∧
      next.chainCounts = log.chainCounts.set (orgOf textOf record) seq := by
  unfold AuditLog.writeAuditLog at h
  cases hsign : signer.sign hmac (log.chainHeads.get? (orgOf textOf record))
      (adapter.signingPayload eventType record) with
  | none => simp [hsign] at h
  | some chain =>
      simp only [hsign] at h
      refine ⟨chain, _, rfl, rfl, ?_⟩
      cases adapter with
      | inMemory =>
          obtain rfl := Option.some.inj h
          exact ⟨rfl, rfl, rfl⟩
      | file =>
          simp only at h
          split at h
          · obtain rfl := Option.some.inj h
            exact ⟨rfl, rfl, rfl⟩
          · cases h

/-- A write whose event type survives extends the chain of its organisation and no other. -/
theorem ChainOf.write (hnonempty : ∀ key text, hmac key text ≠ []) {next : AuditLog}
    {eventType : String} {record : AuditRecord}
    (hwrite : log.writeAuditLog hmac textOf adapter signer eventType record = some next)
    (hsurvives : EventTypeSurvives textOf adapter eventType record) {org : String}
    (h : ChainOf hmac textOf adapter signer log org rows) :
    ∃ more, ChainOf hmac textOf adapter signer next org more := by
  obtain ⟨chain, seq, hsign, hseq, hlog, hheads, hcounts⟩ := writeAuditLog_cases hwrite
  have hrows : orgRows textOf adapter next org = orgRows textOf adapter log org ++
      [adapter.exportRow (eventType, chained record seq chain)].filter
        fun row => orgOf textOf row = org := by
    rw [orgRows, hlog, List.map_append, List.filter_append]
    rfl
  by_cases horg : orgOf textOf record = org
  · subst horg
    obtain ⟨hprev, hversion, text, htext, hsignature⟩ := sign_eq hsign
    have hsigned : chain.signature ≠ [] := hsignature ▸ hnonempty _ _
    have hpresent : Audit.present chain.prevHash = chain.prevHash := by rw [hprev, h.present]
    have hpayload : dumps (.obj (verifiedPayload textOf
        (adapter.exportRow (eventType, chained record seq chain)))) = some text :=
      (dumps_verifiedPayload_iff textOf htext).mpr hsurvives
    refine ⟨rows ++ [⟨seq, verifiedPayload textOf
      (adapter.exportRow (eventType, chained record seq chain)), chain.prevHash, chain.signature,
      chain.keyVersion⟩], ?_, ?_, ?_, ?_, ?_, ?_, ?_, ?_⟩
    · rw [hrows, List.filter_cons, if_pos (by simp [orgOf_exportRow]), List.filter_nil,
        List.mapM_append, h.read]
      simp [toRow_exportRow, hpresent]
    · rw [List.map_append, linkedFrom_append]
      refine ⟨h.linked, ?_, trivial⟩
      rw [Option.or_none, ← h.head, ← hprev]
      rfl
    · intro row hrow
      rcases List.mem_append.mp hrow with hold | hnew
      · exact h.verified row hold
      · obtain rfl := List.mem_singleton.mp hnew
        rw [hprev]
        exact verifyRow_signed hsign (hpayload.trans htext.symm)
    · rw [hheads, Dict.get?_set_self, List.map_append, List.map_singleton, lastSignature_snoc]
      rfl
    · rw [hheads, Dict.get?_set_self, present_some hsigned]
    · rw [hcounts, Dict.get?_set_self, List.length_append, Option.getD_some, hseq, h.count]
      rfl
    · refine List.pairwise_append.mpr ⟨h.ordered, List.pairwise_singleton _ _, ?_⟩
      intro row hrow other hother
      obtain rfl := List.mem_singleton.mp hother
      have hnumber := h.numbered row hrow
      have hcount := h.count
      simp only
      omega
    · intro row hrow
      rw [List.length_append, List.length_singleton]
      rcases List.mem_append.mp hrow with hold | hnew
      · have hnumber := h.numbered row hold
        omega
      · obtain rfl := List.mem_singleton.mp hnew
        have hcount := h.count
        simp only
        omega
  · have hread : orgRows textOf adapter next org = orgRows textOf adapter log org := by
      rw [hrows, List.filter_cons, if_neg (by simpa [orgOf_exportRow] using horg), List.filter_nil,
        List.append_nil]
    have hhead : next.chainHeads.get? org = log.chainHeads.get? org := by
      rw [hheads, Dict.get?_set_of_ne _ _ horg]
    refine ⟨rows, ?_, h.linked, h.verified, ?_, ?_, ?_, h.ordered, h.numbered⟩
    · rw [hread, h.read]
    · rw [hhead, h.head]
    · rw [hhead, h.present]
    · rw [hcounts, Dict.get?_set_of_ne _ _ horg, h.count]

end Chains

/-! ### Writing, exporting and verifying -/

section RoundTrip
variable {hmac : Bytes → List Char → Bytes} {textOf : AuditValue → String} {adapter : Adapter}
  {signer : AuditChainSigner}

/-- The whole log as it is exported. -/
def exported (adapter : Adapter) (log : AuditLog) : List AuditRecord :=
  log.listAuditLogForExport adapter none log.auditLog.length

theorem exported_eq (log : AuditLog) : exported adapter log = log.auditLog.map adapter.exportRow := by
  simp [exported, AuditLog.listAuditLogForExport, List.take_of_length_le]

/-- Every exported row is verified over the bytes it was signed over, and the rows of every
organisation verify as a chain. -/
structure ExportVerifies (hmac : Bytes → List Char → Bytes) (textOf : AuditValue → String)
    (adapter : Adapter) (signer : AuditChainSigner) (writes : List (String × AuditRecord))
    (log : AuditLog) : Prop where
  bytes : List.Forall₂ (fun write row => ∀ prevHash keyVersion,
    canonicalize (verifiedPayload textOf row) prevHash keyVersion =
      canonicalize (adapter.signingPayload write.1 write.2) prevHash keyVersion)
    writes (exported adapter log)
  verified : ∀ org, verifyRows hmac textOf signer
    ((exported adapter log).filter fun row => orgOf textOf row = org) = some ⟨true, none, none⟩

/-- What writes append to a log, one signed entry each. -/
theorem writeAll_cases {log final : AuditLog} {writes : List (String × AuditRecord)}
    (h : log.writeAll hmac textOf adapter signer writes = some final) :
    ∃ entries, final.auditLog = log.auditLog ++ entries ∧
      List.Forall₂ (fun write entry => ∃ seq chain text,
        dumps (.obj (adapter.signingPayload write.1 write.2)) = some text ∧
          entry = (write.1, chained write.2 seq chain)) writes entries := by
  induction writes generalizing log with
  | nil =>
      obtain rfl := Option.some.inj h
      exact ⟨[], by simp, .nil⟩
  | cons write rest ih =>
      obtain ⟨eventType, record⟩ := write
      rw [AuditLog.writeAll] at h
      cases hwrite : log.writeAuditLog hmac textOf adapter signer eventType record with
      | none => simp [hwrite] at h
      | some next =>
          rw [hwrite] at h
          obtain ⟨chain, seq, hsign, _, hlog, _⟩ := writeAuditLog_cases hwrite
          obtain ⟨_, _, text, htext, _⟩ := sign_eq hsign
          obtain ⟨entries, hentries, hall⟩ := ih h
          refine ⟨(eventType, chained record seq chain) :: entries, ?_, ?_⟩
          · rw [hentries, hlog, List.append_assoc]
            rfl
          · exact .cons ⟨seq, chain, text, htext, rfl⟩ hall

theorem writeAll_chainOf (hnonempty : ∀ key text, hmac key text ≠ []) {log final : AuditLog}
    {writes : List (String × AuditRecord)}
    (h : log.writeAll hmac textOf adapter signer writes = some final)
    (hsurvive : ∀ write ∈ writes, EventTypeSurvives textOf adapter write.1 write.2) {org : String}
    {rows : List AuditChainRow} (hrows : ChainOf hmac textOf adapter signer log org rows) :
    ∃ more, ChainOf hmac textOf adapter signer final org more := by
  induction writes generalizing log rows with
  | nil =>
      obtain rfl := Option.some.inj h
      exact ⟨rows, hrows⟩
  | cons write rest ih =>
      obtain ⟨eventType, record⟩ := write
      obtain ⟨hfirst, hrest⟩ := List.forall_mem_cons.mp hsurvive
      rw [AuditLog.writeAll] at h
      cases hwrite : log.writeAuditLog hmac textOf adapter signer eventType record with
      | none => simp [hwrite] at h
      | some next =>
          rw [hwrite] at h
          obtain ⟨more, hmore⟩ := hrows.write hnonempty hwrite hfirst
          exact ih h hrest hmore

/-- The bytes of a row are the signed ones exactly if its event type survives the export. -/
theorem canonicalize_exportRow_iff {eventType : String} {record : AuditRecord} {seq : Nat}
    {chain : ChainSignature} {text : List Char}
    (htext : dumps (.obj (adapter.signingPayload eventType record)) = some text) :
    (∀ prevHash keyVersion, canonicalize (verifiedPayload textOf
        (adapter.exportRow (eventType, chained record seq chain))) prevHash keyVersion =
      canonicalize (adapter.signingPayload eventType record) prevHash keyVersion) ↔
      EventTypeSurvives textOf adapter eventType record := by
  rw [← dumps_verifiedPayload_iff textOf htext]
  constructor
  · intro hsame
    have hgenesis := hsame none 0
    rw [canonicalize_eq, canonicalize_eq, htext] at hgenesis
    obtain ⟨other, hother, henvelope⟩ := Option.map_eq_some_iff.mp hgenesis
    rw [hother, (envelopeText_inj henvelope).2.1]
  · intro hsame prevHash keyVersion
    rw [canonicalize_eq, canonicalize_eq, hsame, htext]

end RoundTrip

/-! ### A shared conversation, exported from either adapter -/

namespace Sample

def textOf : AuditValue → String := fun _ => "?"

def shareRecord : AuditRecord :=
  (Dict.empty.set "org_id" (.str "org-1")).set "resource_id" (.str "conv-1")

def writes : List (String × AuditRecord) := [("conversation.shared", shareRecord)]

def logOf (adapter : Adapter) : AuditLog :=
  (AuditLog.empty.writeAll hmac textOf adapter newSigner writes).getD AuditLog.empty

theorem shareRecord_eventType : shareRecord.get? "event_type" = none := by
  have hnone : (shareRecord.get? "event_type").isNone = true := by decide
  simpa using hnone

theorem writes_return (adapter : Adapter) :
    AuditLog.empty.writeAll hmac textOf adapter newSigner writes = some (logOf adapter) := by
  have hsome : ∀ adapter : Adapter, (AuditLog.empty.writeAll hmac textOf adapter newSigner
      writes).isSome = true := by
    intro adapter
    cases adapter <;> decide
  obtain ⟨found, hfound⟩ := Option.isSome_iff_exists.mp (hsome adapter)
  rw [logOf, hfound]
  rfl

end Sample

end CopilotRuntime.Audit
