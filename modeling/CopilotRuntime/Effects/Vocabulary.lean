import CopilotRuntime.Effects.Identifiers

/-!
# Closed vocabularies of the effect lane

Each enumeration lists the values of one wire vocabulary, with the text that
appears in ledger payloads and the partial inverse used when reading them.
-/

namespace CopilotRuntime.Effects

/-- The value whose wire text is the given one, among a closed list of values. -/
def ofText {α : Type} (all : List α) (text : α → String) (s : String) : Option α :=
  all.find? fun a => text a == s

inductive EffectExecutorKind
  | mcp | workspace | browser | sandbox | builtin
  deriving DecidableEq

namespace EffectExecutorKind

def value : EffectExecutorKind → String
  | mcp => "mcp"
  | workspace => "workspace"
  | browser => "browser"
  | sandbox => "sandbox"
  | builtin => "builtin"

def parse : String → Option EffectExecutorKind :=
  ofText [mcp, workspace, browser, sandbox, builtin] value

end EffectExecutorKind

inductive EffectActor
  | user | policy | system
  deriving DecidableEq

namespace EffectActor

def value : EffectActor → String
  | user => "user"
  | policy => "policy"
  | system => "system"

def parse : String → Option EffectActor := ofText [user, policy, system] value

end EffectActor

inductive EffectOutcome
  | applied | partially | failed | cancelled | indeterminate | alreadyApplied
  | preconditionDrift
  deriving DecidableEq

namespace EffectOutcome

def value : EffectOutcome → String
  | applied => "applied"
  | partially => "partial"
  | failed => "failed"
  | cancelled => "cancelled"
  | indeterminate => "indeterminate"
  | alreadyApplied => "already_applied"
  | preconditionDrift => "precondition_drift"

end EffectOutcome

inductive RowOutcome
  | applied | failed
  deriving DecidableEq

def RowOutcome.value : RowOutcome → String
  | .applied => "applied"
  | .failed => "failed"

inductive EffectClass
  | none | internalReversible | externalReversible | externalDestructive | unknown
  deriving DecidableEq

namespace EffectClass

def value : EffectClass → String
  | none => "none"
  | internalReversible => "internal_reversible"
  | externalReversible => "external_reversible"
  | externalDestructive => "external_destructive"
  | unknown => "unknown"

def parse : String → Option EffectClass :=
  ofText [none, internalReversible, externalReversible, externalDestructive, unknown] value

end EffectClass

inductive EffectPolicy
  | auto | ask | require | block
  deriving DecidableEq

namespace EffectPolicy

def value : EffectPolicy → String
  | auto => "auto"
  | ask => "ask"
  | require => "require"
  | block => "block"

def parse : String → Option EffectPolicy := ofText [auto, ask, require, block] value

end EffectPolicy

inductive EffectDecisionKind
  | approve | reject | restore | cancel
  deriving DecidableEq

namespace EffectDecisionKind

def value : EffectDecisionKind → String
  | approve => "approve"
  | reject => "reject"
  | restore => "restore"
  | cancel => "cancel"

def parse : String → Option EffectDecisionKind :=
  ofText [approve, reject, restore, cancel] value

end EffectDecisionKind

inductive EffectProposalKind
  | canonicalArguments | artifactRevision | workspaceChangeSet | rowSet | browserSubmission
  | sandboxPatch | builtinPayload
  deriving DecidableEq

namespace EffectProposalKind

def value : EffectProposalKind → String
  | canonicalArguments => "canonical_arguments"
  | artifactRevision => "artifact_revision"
  | workspaceChangeSet => "workspace_change_set"
  | rowSet => "row_set"
  | browserSubmission => "browser_submission"
  | sandboxPatch => "sandbox_patch"
  | builtinPayload => "builtin_payload"

def parse : String → Option EffectProposalKind :=
  ofText [canonicalArguments, artifactRevision, workspaceChangeSet, rowSet, browserSubmission,
    sandboxPatch, builtinPayload] value

end EffectProposalKind

end CopilotRuntime.Effects

/-!
# Field validation

A contract reports at most one error for each field, the first check its value
fails, in field order. Model-level checks run only when every field is valid.

## Implementation notes

Errors keep the field they belong to and the message of the failed check.
-/

namespace CopilotRuntime.Effects

open Foundation

/-- One rejected field and why. Model-level errors have the empty field name. -/
structure FieldError where
  field : String
  message : String

/-- One condition on a value and the message reported when it fails. -/
structure Check where
  holds : Bool
  message : String

/-- The error of the first failing check of a field. -/
def fieldErrors (field : String) (checks : List Check) : List FieldError :=
  match checks.find? fun check => !check.holds with
  | some check => [⟨field, check.message⟩]
  | none => []

/-- A field without errors has passed all of its checks. -/
@[simp] theorem fieldErrors_eq_nil_iff (field : String) (checks : List Check) :
    fieldErrors field checks = [] ↔ ∀ check ∈ checks, check.holds = true := by
  unfold fieldErrors
  cases h : checks.find? fun check => !check.holds with
  | none => simpa using List.find?_eq_none.mp h
  | some check =>
      have hfails := List.find?_some h
      have hmem := List.mem_of_find?_eq_some h
      simp only [List.cons_ne_self, false_iff]
      intro hall
      simp [hall check hmem] at hfails

def minLength (n : Nat) (s : String) : Check :=
  ⟨n ≤ s.length, "String should have at least " ++ toString n ++ " character"⟩

def maxLength (n : Nat) (s : String) : Check :=
  ⟨s.length ≤ n, "String should have at most " ++ toString n ++ " characters"⟩

def positive (n : Nat) : Check :=
  ⟨1 ≤ n, "Input should be greater than or equal to 1"⟩

def sha256Hex (s : String) : Check :=
  ⟨isSha256Hex s, "String should match pattern '^[0-9a-f]\x7b64\x7d$'"⟩

/-- Checks on an optional value apply only when it is present. -/
def optionalChecks {α : Type} (value : Option α) (checks : α → List Check) : List Check :=
  match value with
  | some a => checks a
  | none => []

@[simp] theorem optionalChecks_none {α : Type} (checks : α → List Check) :
    optionalChecks none checks = [] := rfl

@[simp] theorem optionalChecks_some {α : Type} (a : α) (checks : α → List Check) :
    optionalChecks (some a) checks = checks a := rfl

/-- A drive-letter marker after the first character of a path. -/
def hasDriveMarker (s : String) : Bool :=
  match s.toList with
  | _ :: ':' :: c :: _ => c == '/' || c == '\\'
  | _ => false

def startsWithAny (s : String) (prefixes : List String) : Bool :=
  prefixes.any fun pre => Text.startsWith s pre

def physicalSchemes : List String := ["file://", "filesystem://", "data:"]

/-- A bounded logical reference that names no host path, plainly or percent-encoded. -/
def safeReference (value : String) : Bool :=
  let normalised := Text.replaceChar (Url.unquoteFully value) '\\' '/'
  !value.isEmpty && value.length ≤ maxReferenceLength && Text.strip value == value &&
    !Text.hasChar value '\n' && !Text.hasChar value '\r' && Text.contains value "://" &&
    !startsWithAny value ["/", "~", "\\"] &&
    !startsWithAny (Text.lower value) physicalSchemes &&
    !hasDriveMarker value &&
    !startsWithAny normalised ["/", "~"] &&
    !startsWithAny (Text.lower normalised) physicalSchemes &&
    !hasDriveMarker normalised &&
    !Text.hasChar normalised '\x00' &&
    !(Text.split normalised '/').any isDotSegment

/-- A logical URI with a scheme and an authority that no decoding turns into a path. -/
def safeOpaqueUri (forbidProposalScheme : Bool) (value : String) : Bool :=
  let forbidden := ["file", "filesystem", "data", "http", "https"] ++
    if forbidProposalScheme then ["proposal"] else []
  let decoded := Url.unquoteFully value
  !value.isEmpty && value.length ≤ maxReferenceLength && Text.strip value == value &&
    !Text.hasChar value '\n' && !Text.hasChar value '\r' && !Text.hasChar value '\x00' &&
    !startsWithAny value ["/", "~", "\\"] && !hasDriveMarker value &&
    (match Url.urlsplit value with
      | none => false
      | some parsed =>
          parsed.scheme != "" && parsed.netloc != "" && parsed.query == "" &&
            parsed.fragment == "" && !forbidden.contains parsed.scheme) &&
    match Url.urlsplit decoded with
      | none => false
      | some parts =>
          !Text.hasChar decoded '\\' && !Text.hasChar decoded '\x00' && parts.query == "" &&
            parts.fragment == "" && !Text.startsWith parts.path "//" &&
            [parts.netloc, parts.path, parts.query, parts.fragment].all fun component =>
              !(Text.split component '/').any isDotSegment

/-- A locator of immutable content: an opaque URI that is no proposal identity. -/
def immutableContentRef (value : String) : Bool :=
  let forbidden := ["file", "filesystem", "data", "http", "https"]
  let decoded := Url.unquoteFully value
  let normalised := Text.replaceChar decoded '\\' '/'
  match Url.urlsplit value, Url.urlsplit decoded with
  | some parsed, some parts =>
      !value.isEmpty && value.length ≤ maxReferenceLength && Text.strip value == value &&
        !Text.hasChar value '\n' && !Text.hasChar value '\r' && Text.contains value "://" &&
        !startsWithAny value ["/", "~", "\\"] && parsed.scheme != "" && parsed.netloc != "" &&
        parsed.query == "" && parsed.fragment == "" && !forbidden.contains parsed.scheme &&
        !hasDriveMarker value && !startsWithAny normalised ["/", "~"] && parts.query == "" &&
        parts.fragment == "" && !forbidden.contains parts.scheme && !hasDriveMarker normalised &&
        !Text.hasChar normalised '\x00' && !Text.hasChar decoded '\\' &&
        !Text.startsWith parts.path "//" &&
        ([parts.netloc, parts.path, parts.query, parts.fragment].all fun component =>
          !(Text.split component '/').any isDotSegment) &&
        !Text.startsWith (Text.lower value) "proposal://"
  | _, _ => false

/-- A reference of an effect target: a URI that is plainly no host path. -/
def targetReference (value : String) : Bool :=
  !value.isEmpty && value.length ≤ maxReferenceLength && Text.strip value == value &&
    Text.contains value "://" && !startsWithAny value ["/", "~", "\\"] &&
    !startsWithAny (Text.lower value) ["file://", "filesystem://"] && !hasDriveMarker value &&
    !(Text.split value '/').any isDotSegment

/-- A type and a subtype, each starting with a letter or digit. -/
def isMediaType (s : String) : Bool :=
  let tail := fun c => Text.isAsciiAlnum c || c == '.' || c == '+' || c == '-'
  match Text.split s '/' with
  | [kind, sub] =>
      Text.matchesToken Text.isAsciiAlnum tail kind.length kind &&
        Text.matchesToken Text.isAsciiAlnum tail sub.length sub
  | _ => false

/-- A reference and its digest are given together or not at all. -/
def refDigestPair (label : String) (ref digest : Option String) : Check :=
  ⟨ref.isNone == digest.isNone,
    label ++ "_ref and " ++ label ++ "_digest must be supplied together"⟩

def safeReferenceCheck (label value : String) : Check :=
  ⟨safeReference value, label ++ " must be an opaque safe URI reference"⟩

def safeOpaqueUriCheck (fieldName : String) (forbidProposalScheme : Bool) (value : String) : Check :=
  ⟨safeOpaqueUri forbidProposalScheme value, fieldName ++ " must be an opaque safe URI"⟩

/-- A token without surrounding blanks or path separators. -/
def isOpaqueToken (s : String) : Bool :=
  Text.strip s == s && !Text.hasChar s '/' && !Text.hasChar s '\\'

def isKeyChar (c : Char) : Bool :=
  Text.isAsciiAlnum c || c == '.' || c == '_' || c == ':' || c == '-'

/-- The pattern of idempotency keys and run ids. -/
def isStableKey (s : String) : Bool := Text.matchesToken Text.isAsciiAlnum isKeyChar 255 s

def uniqueRowKeys (keys : List String) : Check :=
  ⟨!keys.isEmpty && keys.Nodup, "row_keys must contain unique row keys"⟩

end CopilotRuntime.Effects
