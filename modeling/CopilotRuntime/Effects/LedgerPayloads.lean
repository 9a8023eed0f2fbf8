import CopilotRuntime.Effects.StageContracts

/-!
# Payload models of the work ledger

The ledger's vocabulary has one strict model for each event type. A payload is
admitted if every field of the model accepts its value, no other field is
present, and the checks across fields hold. What is written is the admitted
payload without its nulls, in the model's field order.

## Implementation notes

A null counts as an absent value, and no value is coerced to another type.
Only the models of the events that the stager writes are given.
-/

namespace CopilotRuntime.Foundation.Payload

/-- The value of a field that is neither absent nor null. -/
def present (p : Payload) (key : String) : Option Json :=
  match Json.lookup p key with
  | none | some .null => none
  | some value => some value

theorem lookup_eq_none_iff {p : Payload} {key : String} :
    Json.lookup p key = none ↔ key ∉ p.map Prod.fst := by
  induction p with
  | nil => simp [Json.lookup]
  | cons field rest ih =>
      obtain ⟨name, value⟩ := field
      unfold Json.lookup
      by_cases hname : name = key
      · simp [hname]
      · rw [if_neg hname, ih]
        simp [Ne.symm hname]

theorem lookup_append_singleton {p : Payload} {field : String × Json} {key : String}
    (hne : field.1 ≠ key) : Json.lookup (p ++ [field]) key = Json.lookup p key := by
  induction p with
  | nil => exact if_neg hne
  | cons other rest ih =>
      obtain ⟨name, value⟩ := other
      change (if name = key then some value else Json.lookup (rest ++ [field]) key) =
        if name = key then some value else Json.lookup rest key
      rw [ih]

theorem lookup_filter_ne {p : Payload} {dropped key : String} (hne : key ≠ dropped) :
    Json.lookup (p.filter fun field => field.1 ≠ dropped) key = Json.lookup p key := by
  induction p with
  | nil => rfl
  | cons field rest ih =>
      obtain ⟨name, value⟩ := field
      by_cases hname : name = dropped
      · have hother : name ≠ key := fun h => hne (h.symm.trans hname)
        rw [List.filter_cons_of_neg (by simpa using hname), ih, Json.lookup, if_neg hother]
      · rw [List.filter_cons_of_pos (by simpa using hname), Json.lookup, Json.lookup, ih]

/-- Fields that are written when they have a value are looked up by that value. -/
theorem lookup_filterMap (value : String → Option Json) (names : List String) (key : String) :
    Json.lookup (names.filterMap fun name => (value name).map fun v => (name, v)) key =
      if key ∈ names then value key else none := by
  induction names with
  | nil => rfl
  | cons name rest ih =>
      cases hvalue : value name with
      | none =>
          by_cases hname : key = name
          · subst hname
            simp [hvalue, ih]
          · simp [hvalue, ih, hname]
      | some v =>
          by_cases hname : key = name
          · subst hname
            simp [hvalue, Json.lookup]
          · simp [hvalue, Json.lookup, Ne.symm hname, ih, hname]

/-- A payload that is read as another one, its nulls and its writer stamp apart. -/
def CarriedBy (p q : Payload) : Prop :=
  ∀ key, key ≠ "w" → Json.lookup q key = p.present key

section Readers
variable {p q : Payload} {key : String}

theorem CarriedBy.string (h : CarriedBy p q) (hkey : key ≠ "w") :
    q.string key = p.string key := by
  unfold Payload.string
  rw [h key hkey, present]
  cases Json.lookup p key with
  | none => rfl
  | some value => cases value <;> rfl

theorem CarriedBy.optionalString (h : CarriedBy p q) (hkey : key ≠ "w") :
    q.optionalString key = p.optionalString key := by
  unfold Payload.optionalString
  rw [h key hkey, present]
  cases Json.lookup p key with
  | none => rfl
  | some value => cases value <;> rfl

theorem CarriedBy.natural (h : CarriedBy p q) (hkey : key ≠ "w") :
    q.natural key = p.natural key := by
  unfold Payload.natural
  rw [h key hkey, present]
  cases Json.lookup p key with
  | none => rfl
  | some value => cases value <;> rfl

theorem CarriedBy.truthy (h : CarriedBy p q) (hkey : key ≠ "w") :
    q.truthy key = p.truthy key := by
  unfold Payload.truthy
  rw [h key hkey, present]
  cases Json.lookup p key with
  | none => rfl
  | some value => cases value <;> rfl

theorem CarriedBy.optionalRowKeys (h : CarriedBy p q) : q.optionalRowKeys = p.optionalRowKeys := by
  unfold Payload.optionalRowKeys
  rw [h "row_keys" (by decide), present]
  cases Json.lookup p "row_keys" with
  | none => rfl
  | some value => cases value <;> rfl

theorem CarriedBy.boolean (h : CarriedBy p q) (hkey : key ≠ "w")
    (hvalue : Json.lookup p key ≠ some .null) : q.boolean key = p.boolean key := by
  unfold Payload.boolean
  rw [h key hkey, present]
  cases hlookup : Json.lookup p key with
  | none => rfl
  | some value =>
      cases value with
      | null => exact (hvalue hlookup).elim
      | _ => rfl

theorem CarriedBy.versionOk (h : CarriedBy p q) (hvalue : Json.lookup p "v" ≠ some .null) :
    q.versionOk = p.versionOk := by
  unfold Payload.versionOk
  rw [h "v" (by decide), present]
  cases hlookup : Json.lookup p "v" with
  | none => rfl
  | some value =>
      cases value with
      | null => exact (hvalue hlookup).elim
      | _ => rfl

end Readers

end CopilotRuntime.Foundation.Payload

namespace CopilotRuntime.Effects

open Foundation

/-- One field of a payload model and the checks on a value that is present. -/
structure PayloadField where
  name : String
  required : Bool
  checks : Json → List Check

/-- The fields of one event type and the checks that relate them. -/
structure PayloadModel where
  fields : List PayloadField
  across : (String → Option Json) → List Check

namespace PayloadModel

def names (m : PayloadModel) : List String := m.fields.map fun field => field.name

def fieldChecks (p : Payload) (field : PayloadField) : List Check :=
  match p.present field.name with
  | some value => field.checks value
  | none => [⟨!field.required, "Field required"⟩]

def ownErrors (m : PayloadModel) (p : Payload) : List FieldError :=
  (m.fields.flatMap fun field => fieldErrors field.name (fieldChecks p field)) ++
    p.flatMap fun field =>
      fieldErrors field.1 [⟨m.names.contains field.1, "Extra inputs are not permitted"⟩]

def errors (m : PayloadModel) (p : Payload) : List FieldError :=
  match m.ownErrors p with
  | [] => fieldErrors "" (m.across p.present)
  | found => found

/-- The fields with a value, in the order of the model. -/
def dump (m : PayloadModel) (p : Payload) : Payload :=
  m.names.filterMap fun name => (p.present name).map fun value => (name, value)

variable {m : PayloadModel} {p q : Payload}

/-- A payload is admitted when each field, its names, and the checks across fields are fine. -/
theorem errors_eq_nil_iff :
    m.errors p = [] ↔
      (∀ field ∈ m.fields, ∀ check ∈ fieldChecks p field, check.holds = true) ∧
        (∀ field ∈ p, field.1 ∈ m.names) ∧
        ∀ check ∈ m.across p.present, check.holds = true := by
  have hown : m.ownErrors p = [] ↔
      (∀ field ∈ m.fields, ∀ check ∈ fieldChecks p field, check.holds = true) ∧
        ∀ field ∈ p, field.1 ∈ m.names := by
    simp [ownErrors]
  unfold errors
  split
  · next hnone =>
      obtain ⟨hfields, hnames⟩ := hown.mp hnone
      rw [fieldErrors_eq_nil_iff]
      exact ⟨fun hacross => ⟨hfields, hnames, hacross⟩, fun h => h.2.2⟩
  · next found hne =>
      constructor
      · intro hfound
        exact (hne hfound).elim
      · rintro ⟨hfields, hnames, _⟩
        exact (hne (hown.mpr ⟨hfields, hnames⟩)).elim

/-- Two payloads with the same values are admitted alike. -/
theorem errors_congr (hpresent : q.present = p.present) (hnames : ∀ field ∈ q, field.1 ∈ m.names)
    (h : m.errors p = []) : m.errors q = [] := by
  obtain ⟨hfields, _, hacross⟩ := errors_eq_nil_iff.mp h
  refine errors_eq_nil_iff.mpr ⟨?_, hnames, hpresent ▸ hacross⟩
  intro field hfield
  unfold fieldChecks
  rw [hpresent]
  exact hfields field hfield

/-- What is written has the values of the admitted payload. -/
theorem lookup_dump (h : m.errors p = []) (key : String) :
    Json.lookup (m.dump p) key = p.present key := by
  have hnames := (errors_eq_nil_iff.mp h).2.1
  unfold dump
  rw [Payload.lookup_filterMap]
  split
  · rfl
  · next hunknown =>
      have hkeys : key ∉ p.map Prod.fst := by
        intro hkey
        obtain ⟨field, hfield, rfl⟩ := List.mem_map.mp hkey
        exact hunknown (hnames field hfield)
      simp [Payload.present, Payload.lookup_eq_none_iff.mpr hkeys]

theorem present_dump (h : m.errors p = []) : (m.dump p).present = p.present := by
  funext key
  rw [Payload.present, lookup_dump h]
  unfold Payload.present
  cases Json.lookup p key with
  | none => rfl
  | some value => cases value <;> rfl

/-- What is written is admitted again, and written as it is. -/
theorem dump_dump (h : m.errors p = []) :
    m.errors (m.dump p) = [] ∧ m.dump (m.dump p) = m.dump p := by
  have hpresent := present_dump h
  constructor
  · refine errors_congr hpresent ?_ h
    rintro field hfield
    obtain ⟨name, hname, hvalue⟩ := List.mem_filterMap.mp hfield
    obtain ⟨value, _, rfl⟩ := Option.map_eq_some_iff.mp hvalue
    exact hname
  · change m.names.filterMap (fun name => ((m.dump p).present name).map fun value => (name, value)) =
      m.dump p
    rw [hpresent]
    rfl

end PayloadModel

/-! ### Checks on single values -/

def textField (checks : String → List Check) : Json → List Check
  | .str s => checks s
  | _ => [⟨false, "Input should be a valid string"⟩]

/-- A text between two lengths. -/
def boundedText (limit : Nat) : Json → List Check :=
  textField fun s => [minLength 1 s, maxLength limit s]

def safePositiveInt : Json → List Check
  | .int n =>
      [⟨1 ≤ n, "Input should be greater than or equal to 1"⟩,
        ⟨n ≤ maxSafeInteger, "Input should be less than or equal to " ++ toString maxSafeInteger⟩]
  | _ => [⟨false, "Input should be a valid integer"⟩]

def booleanField : Json → List Check
  | .bool _ => []
  | _ => [⟨false, "Input should be a valid boolean"⟩]

def listed : List String → String
  | [] => ""
  | [value] => "'" ++ value ++ "'"
  | [value, last] => "'" ++ value ++ "' or '" ++ last ++ "'"
  | value :: rest => "'" ++ value ++ "', " ++ listed rest

/-- A text of a closed vocabulary. -/
def oneOf (values : List String) : Json → List Check :=
  textField fun s => [⟨values.contains s, "Input should be " ++ listed values⟩]

def versionField : Json → List Check
  | .int n => [⟨n == 1, "Input should be 1"⟩]
  | _ => [⟨false, "Input should be 1"⟩]

/-- A logical URI with a scheme and an authority, as the ledger wants it everywhere. -/
def opaqueSafeUri (value : String) : Bool :=
  let forbidden := ["file", "filesystem", "data", "http", "https"]
  let decoded := Url.unquoteFully value
  let normalised := Text.replaceChar decoded '\\' '/'
  match Url.urlsplit value, Url.urlsplit decoded with
  | some parsed, some parts =>
      !value.isEmpty && value.length ≤ maxReferenceLength && Text.strip value == value &&
        !Text.hasChar value '\n' && !Text.hasChar value '\r' && Text.contains value "://" &&
        !startsWithAny value ["/", "~", "\\"] && parsed.scheme != "" && parsed.netloc != "" &&
        parsed.query == "" && parsed.fragment == "" && !forbidden.contains parsed.scheme &&
        !hasDriveMarker value && !startsWithAny normalised ["/", "~"] && parts.query == "" &&
        parts.fragment == "" && !forbidden.contains parts.scheme && !hasDriveMarker normalised &&
        !Text.hasChar normalised '\x00' && !Text.hasChar decoded '\\' &&
        !Text.startsWith parts.path "//" &&
        [parts.netloc, parts.path, parts.query, parts.fragment].all fun component =>
          !(Text.split component '/').any isDotSegment
  | _, _ => false

/-- A content locator is such a URI, of another scheme than proposal identities. -/
theorem immutableContentRef_eq (value : String) :
    immutableContentRef value =
      (opaqueSafeUri value && !Text.startsWith (Text.lower value) "proposal://") := by
  unfold immutableContentRef opaqueSafeUri
  dsimp only
  generalize Url.urlsplit value = parsed
  generalize Url.urlsplit (Url.unquoteFully value) = parts
  cases parsed with
  | none => exact (Bool.false_and _).symm
  | some parsed =>
      cases parts with
      | none => exact (Bool.false_and _).symm
      | some parts => rfl

def opaqueUriCheck (fieldName value : String) : Check :=
  ⟨opaqueSafeUri value, fieldName ++ " must be an opaque safe URI reference"⟩

def metadataRef : Json → List Check :=
  textField fun s => [opaqueUriCheck "effect metadata reference" s]

def contentRefField : Json → List Check :=
  textField fun s =>
    [opaqueUriCheck "proposal_content_ref" s,
      ⟨!Text.startsWith (Text.lower s) "proposal://",
        "proposal_content_ref must locate immutable content, not proposal identity"⟩]

def uuidPatternMessage (pre : String) : String :=
  "String should match pattern '^" ++ pre ++ "[0-9a-f]\x7b8\x7d-[0-9a-f]\x7b4\x7d-" ++
    "[47][0-9a-f]\x7b3\x7d-[89ab][0-9a-f]\x7b3\x7d-[0-9a-f]\x7b12\x7d$'"

def stageIdField : Json → List Check :=
  textField fun s => [⟨(EffectStageIdCodec.parse s).isSome, uuidPatternMessage "stg_"⟩]

def operationIdField : Json → List Check :=
  textField fun s => [⟨(OperationIdCodec.parse s).isSome, uuidPatternMessage "op_"⟩]

def digestField : Json → List Check := textField fun s => [sha256Hex s]

def mediaTypeField : Json → List Check := textField fun s => [mediaTypeCheck s]

/-- The grant and the path token a workspace target names. -/
structure ParsedWorkspaceTargetRef where
  grantId : String
  pathToken : String

namespace WorkspaceTargetRefCodec

def isToken (s : String) : Bool :=
  let char := fun c => Text.isAsciiAlnum c || c == '_' || c == '-'
  Text.matchesToken char char 255 s

def parse (text : String) : Option ParsedWorkspaceTargetRef :=
  match referenceParts "workspace-target://" text with
  | some [grantId, pathToken] =>
      if isToken grantId && isToken pathToken then some ⟨grantId, pathToken⟩ else none
  | _ => none

end WorkspaceTargetRefCodec

/-! ### The models of the stager's events -/

/-- The writer generation new rows are signed with. -/
def currentLedgerWriter : String := "runtime.v2.1"

def effectActors : List String := ["user", "policy", "system"]

def effectProposalKinds : List String :=
  ["canonical_arguments", "artifact_revision", "workspace_change_set", "row_set",
    "browser_submission", "sandbox_patch", "builtin_payload"]

/-- Every ledger payload states its version and may state its writer. -/
def ledgerPayload (fields : List PayloadField) : List PayloadField :=
  ⟨"v", true, versionField⟩ :: ⟨"w", false, oneOf [currentLedgerWriter]⟩ :: fields

def textOf (value : String → Option Json) (key : String) : Option String :=
  match value key with
  | some (.str s) => some s
  | _ => none

/-- The proposal a payload names is that of its stage and the given revision. -/
def proposalRefChecks (value : String → Option Json) (revision : Option Nat) (message : String) :
    List Check :=
  let parsed := (textOf value "proposal_ref").bind ProposalUriCodec.parse
  [⟨parsed.isSome, "not a valid proposal reference"⟩,
    ⟨parsed.any fun ref => textOf value "stage_id" == some ref.stageId &&
      revision == some ref.revision, message⟩]

def effectStagedPayload : PayloadModel where
  fields := ledgerPayload [
    ⟨"stage_id", true, stageIdField⟩,
    ⟨"operation_id", true, operationIdField⟩,
    ⟨"executor", true, oneOf ["mcp", "workspace", "browser", "sandbox", "builtin"]⟩,
    ⟨"target_ref", true, textField fun _ => []⟩,
    ⟨"target_digest", true, digestField⟩,
    ⟨"proposal_ref", true, textField fun _ => []⟩,
    ⟨"proposal_digest", true, digestField⟩,
    ⟨"policy", true, oneOf ["auto", "ask", "require", "block"]⟩,
    ⟨"capability", false, boundedText 128⟩,
    ⟨"op", false, boundedText 128⟩,
    ⟨"display_target", false, boundedText 512⟩,
    ⟨"proposal_kind", false, oneOf effectProposalKinds⟩,
    ⟨"proposal_content_ref", false, contentRefField⟩,
    ⟨"proposal_media_type", false, mediaTypeField⟩,
    ⟨"precondition_ref", false, metadataRef⟩,
    ⟨"precondition_digest", false, digestField⟩,
    ⟨"effect_class", false, oneOf ["none", "internal_reversible", "external_reversible",
      "external_destructive", "unknown"]⟩,
    ⟨"policy_snapshot_ref", false, metadataRef⟩,
    ⟨"agent_hold", false, booleanField⟩,
    ⟨"safe_summary_ref", false, metadataRef⟩,
    ⟨"projection_required", false, booleanField⟩,
    ⟨"owner_ref", false, metadataRef⟩,
    ⟨"author_actor", false, oneOf effectActors⟩,
    ⟨"author_ref", false, metadataRef⟩,
    ⟨"created_at", false, boundedText 128⟩]
  across value :=
    let target := (textOf value "target_ref").getD ""
    [⟨opaqueSafeUri target, "target_ref must be an opaque non-file URI reference"⟩,
      ⟨textOf value "executor" != some "workspace" || (WorkspaceTargetRefCodec.parse target).isSome,
        "not a valid workspace target reference"⟩] ++
    proposalRefChecks value (some 1) "initial proposal_ref must reference stage_id and revision 1"

def revisionOf (value : String → Option Json) : Option Nat :=
  match value "revision" with
  | some (.int n) => some n.toNat
  | _ => none

def effectRevisedPayload : PayloadModel where
  fields := ledgerPayload [
    ⟨"stage_id", true, stageIdField⟩,
    ⟨"revision", true, safePositiveInt⟩,
    ⟨"proposal_ref", true, textField fun _ => []⟩,
    ⟨"proposal_digest", true, digestField⟩,
    ⟨"author", false, oneOf ["model", "subagent", "user", "system", "import"]⟩,
    ⟨"proposal_kind", false, oneOf effectProposalKinds⟩,
    ⟨"proposal_content_ref", false, contentRefField⟩,
    ⟨"proposal_media_type", false, mediaTypeField⟩,
    ⟨"target_ref", false, metadataRef⟩,
    ⟨"target_digest", false, digestField⟩,
    ⟨"display_target", false, boundedText 512⟩,
    ⟨"precondition_ref", false, metadataRef⟩,
    ⟨"precondition_digest", false, digestField⟩,
    ⟨"safe_diff_ref", false, metadataRef⟩,
    ⟨"author_actor", false, oneOf effectActors⟩,
    ⟨"author_ref", false, metadataRef⟩,
    ⟨"created_at", false, boundedText 128⟩]
  across value :=
    proposalRefChecks value (revisionOf value) "proposal_ref must reference stage_id and revision"

def effectProjectionBoundPayload : PayloadModel where
  fields := ledgerPayload [
    ⟨"stage_id", true, stageIdField⟩,
    ⟨"revision", true, safePositiveInt⟩,
    ⟨"projection_ref", true, textField fun s => [opaqueUriCheck "projection_ref" s]⟩,
    ⟨"proposal_digest", true, digestField⟩,
    ⟨"target_digest", true, digestField⟩,
    ⟨"bound_at", true, boundedText 128⟩]
  across _ := []

def actorRefField : Json → List Check := textField fun s => [opaqueUriCheck "actor_ref" s]

/-- A list of bounded texts without repetitions. -/
def rowKeysField : Json → List Check
  | .arr items =>
      (items.flatMap (boundedText 256)) ++
        [⟨(Payload.texts items).any fun keys => !keys.isEmpty && keys.Nodup,
          "row_keys must contain unique row keys"⟩]
  | _ => [⟨false, "Input should be a valid tuple"⟩]

def effectDecisionRecordedPayload : PayloadModel where
  fields := ledgerPayload [
    ⟨"stage_id", true, stageIdField⟩,
    ⟨"revision", true, safePositiveInt⟩,
    ⟨"decision", true, oneOf ["approve", "reject", "restore", "cancel"]⟩,
    ⟨"actor", true, oneOf effectActors⟩,
    ⟨"proposal_digest", true, digestField⟩,
    ⟨"target_digest", true, digestField⟩,
    ⟨"actor_ref", false, actorRefField⟩,
    ⟨"decided_at", false, boundedText 128⟩,
    ⟨"row_keys", false, rowKeysField⟩]
  across _ := []

/-- One row review decision of the ledger's vocabulary. -/
def effectRowDecision : PayloadModel where
  fields := [⟨"row_key", true, boundedText 256⟩, ⟨"decision", true, oneOf ["approve", "hold"]⟩]
  across _ := []

def rowDecisionsField : Json → List Check
  | .arr items => items.map fun
      | .obj item => ⟨effectRowDecision.errors item = [], "Input should be a valid row decision"⟩
      | _ => ⟨false, "Input should be a valid dictionary"⟩
  | _ => [⟨false, "Input should be a valid tuple"⟩]

/-- The row keys a list of row decisions names. -/
def decidedRowKeys : Option Json → List String
  | some (.arr items) => items.filterMap fun
      | .obj item => Payload.string item "row_key"
      | _ => none
  | _ => []

def effectRowDecisionsRecordedPayload : PayloadModel where
  fields := ledgerPayload [
    ⟨"stage_id", true, stageIdField⟩,
    ⟨"revision", true, safePositiveInt⟩,
    ⟨"decisions", true, rowDecisionsField⟩,
    ⟨"actor", true, oneOf effectActors⟩,
    ⟨"proposal_digest", true, digestField⟩,
    ⟨"target_digest", true, digestField⟩,
    ⟨"actor_ref", false, actorRefField⟩,
    ⟨"decided_at", false, boundedText 128⟩]
  across value :=
    let keys := decidedRowKeys (value "decisions")
    [⟨!keys.isEmpty && keys.Nodup, "row decisions require unique row keys"⟩]

end CopilotRuntime.Effects
