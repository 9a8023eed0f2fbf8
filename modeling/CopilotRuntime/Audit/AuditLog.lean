import CopilotRuntime.Audit.TamperEvidence
import CopilotRuntime.Foundation.Url

/-!
# The audit log and its export

Both adapters sign every record into the chain of its organisation and keep it
with its chain fields. The exported rows are turned back into signed payloads
by the manifest, whose list of stripped fields is not the one both adapters
strip when they sign.

## Implementation notes

The text of an organisation value that is no string is a parameter. The line a
record is written to holds the value it is read back as; what cannot be
written as a line raises.
-/

namespace CopilotRuntime.Audit

open Foundation

abbrev AuditRecord := Dict String AuditValue

/-! ### Signing payloads -/

inductive Adapter
  | inMemory | file
  deriving DecidableEq

/-- The chain fields every signing payload leaves out. -/
def chainFields : List String := ["seq", "prev_hash", "signature", "key_version"]

/-- The fields the manifest leaves out: the event type is carried besides the record. -/
def manifestChainFields : List String := chainFields ++ ["event_type"]

def eventTypeMarker : String := "__event_type__"

/-- The fields of a record that are signed, with the kind of the operation. -/
def signable (stripped : List String) (eventType : String) (record : AuditRecord) : AuditPayload :=
  setEntries (record.entries.filter fun field => !stripped.contains field.1) eventTypeMarker
    (.str eventType)

def AuditManifest.signingPayload (eventType : String) (record : AuditRecord) : AuditPayload :=
  signable manifestChainFields eventType record

/-- What each adapter signs. -/
def Adapter.signingPayload : Adapter → String → AuditRecord → AuditPayload
  | .inMemory => signable chainFields
  | .file => AuditManifest.signingPayload

/-! ### The log -/

mutual

/-- The value can be written as one line of a file. -/
def isJson : AuditValue → Bool
  | .datetime _ | .bytes _ | .uuid _ | .other _ => false
  | .arr items => areJson items
  | .obj fields => fieldsAreJson fields
  | _ => true

def areJson : List AuditValue → Bool
  | [] => true
  | item :: rest => isJson item && areJson rest

def fieldsAreJson : List (String × AuditValue) → Bool
  | [] => true
  | (_, value) :: rest => isJson value && fieldsAreJson rest

end

/-- The signed records in the order they were written, and the chain of each organisation. -/
structure AuditLog where
  auditLog : List (String × AuditRecord)
  chainHeads : Dict String Bytes
  chainCounts : Dict String Nat
  lines : List (String × AuditRecord)

def AuditLog.empty : AuditLog := ⟨[], Dict.empty, Dict.empty, []⟩

def hexText (value : Bytes) : String := String.ofList (hex value)

/-- The chain fields written into a record. -/
def chained (record : AuditRecord) (seq : Nat) (chain : ChainSignature) : AuditRecord :=
  (((record.set "seq" (.int seq)).set "prev_hash" (prevHashValue chain.prevHash)).set "signature"
    (.str (hexText chain.signature))).set "key_version" (.int chain.keyVersion)

section Writing
variable (hmac : Bytes → List Char → Bytes) (textOf : AuditValue → String)

/-- The organisation a record belongs to, as a text. -/
def orgOf (record : AuditRecord) : String :=
  match record.get? "org_id" with
  | none => "unknown"
  | some (.str org) => org
  | some value => textOf value

/-- Sign a record into the chain of its organisation and append it; nothing where that raises. -/
def AuditLog.writeAuditLog (adapter : Adapter) (signer : AuditChainSigner) (log : AuditLog)
    (eventType : String) (record : AuditRecord) : Option AuditLog :=
  let org := orgOf textOf record
  let payload := adapter.signingPayload eventType record
  match signer.sign hmac (log.chainHeads.get? org) payload with
  | none => none
  | some chain =>
      let seq := (log.chainCounts.get? org).getD 0 + 1
      let signed := chained record seq chain
      let appended : AuditLog := { log with
        auditLog := log.auditLog ++ [(eventType, signed)]
        chainHeads := log.chainHeads.set org chain.signature
        chainCounts := log.chainCounts.set org seq }
      match adapter with
      | .inMemory => some appended
      | .file =>
          if fieldsAreJson signed.entries then
            some { appended with lines := appended.lines ++ [(eventType, signed)] }
          else none

/-- Write records one after another. -/
def AuditLog.writeAll (adapter : Adapter) (signer : AuditChainSigner) :
    AuditLog → List (String × AuditRecord) → Option AuditLog
  | log, [] => some log
  | log, (eventType, record) :: rest =>
      match log.writeAuditLog hmac textOf adapter signer eventType record with
      | none => none
      | some next => AuditLog.writeAll adapter signer next rest

end Writing

/-! ### Exporting and verifying -/

/-- One entry of the log as an exported row. Only the file adapter adds the event type, and a
field of the record with that name replaces it. -/
def Adapter.exportRow : Adapter → String × AuditRecord → AuditRecord
  | .inMemory, (_, record) => record
  | .file, (eventType, record) => (Dict.empty.set "event_type" (.str eventType)).update record

/-- The rows after the one with a signature, or none if no row has it. -/
def rowsAfter (afterId : String) : List AuditRecord → List AuditRecord
  | [] => []
  | row :: rest =>
      match row.get? "signature" with
      | some (.str signature) => if signature = afterId then rest else rowsAfter afterId rest
      | _ => rowsAfter afterId rest

/-- One page of the log for export. -/
def AuditLog.listAuditLogForExport (adapter : Adapter) (log : AuditLog) (afterId : Option String)
    (limit : Nat) : List AuditRecord :=
  let rows := log.auditLog.map adapter.exportRow
  (match afterId with
    | none => rows
    | some signature => rowsAfter signature rows).take limit

/-- Read hexadecimal digits in pairs, with blanks between the pairs. -/
def fromHex : List Char → Option Bytes
  | [] => some []
  | [c] => if c.val == 32 || (9 ≤ c.val && c.val ≤ 13) then some [] else none
  | a :: b :: rest =>
      if a.val == 32 || (9 ≤ a.val && a.val ≤ 13) then fromHex (b :: rest)
      else if Text.isHex a && Text.isHex b then
        (fromHex rest).map (UInt8.ofNat (16 * Url.hexValue a + Url.hexValue b) :: ·)
      else none

/-- An integer field of a row, zero where it is missing or false. The log writes only integers. -/
def integerField (row : AuditRecord) (name : String) : Option Int :=
  match row.get? name with
  | none | some .null | some (.bool false) => some 0
  | some (.bool true) => some 1
  | some (.int n) => some n
  | some _ => none

section Verifier
variable (hmac : Bytes → List Char → Bytes) (textOf : AuditValue → String)

/-- The event type an exported row is verified under. -/
def rowEventType (row : AuditRecord) : String :=
  match row.get? "event_type" with
  | none => ""
  | some (.str eventType) => eventType
  | some value => textOf value

/-- The payload the verifier recomputes for an exported row. -/
def verifiedPayload (row : AuditRecord) : AuditPayload :=
  AuditManifest.signingPayload (rowEventType textOf row) row

/-- An exported row as a row of the chain; nothing where a field cannot be read. -/
def toRow (row : AuditRecord) : Option AuditChainRow :=
  let prevHash := match row.get? "prev_hash" with
    | some (.str text) => (fromHex text.toList).map some
    | _ => some none
  let signature := match row.get? "signature" with
    | some (.str text) => fromHex text.toList
    | _ => some []
  match integerField row "seq", prevHash, signature, integerField row "key_version" with
  | some seq, some prevHash, some signature, some keyVersion =>
      some ⟨seq, verifiedPayload textOf row, prevHash, signature, keyVersion⟩
  | _, _, _, _ => none

/-- Insert a row before the first row with a larger number. -/
def insertRow (row : AuditChainRow) : List AuditChainRow → List AuditChainRow
  | [] => [row]
  | other :: rest =>
      if row.seq < other.seq then row :: other :: rest else other :: insertRow row rest

/-- Rows in increasing order of their numbers. -/
def sortRows (rows : List AuditChainRow) : List AuditChainRow :=
  rows.foldl (fun sorted row => insertRow row sorted) []

/-- Verify exported rows as one chain; nothing where that raises. -/
def verifyRows (signer : AuditChainSigner) (rows : List AuditRecord) :
    Option ChainVerificationResult :=
  match rows.mapM (toRow textOf) with
  | none => none
  | some chainRows => signer.verifyChain hmac (sortRows chainRows)

end Verifier

end CopilotRuntime.Audit
