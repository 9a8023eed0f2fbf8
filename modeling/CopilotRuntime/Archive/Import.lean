import CopilotRuntime.Foundation.Dict
import CopilotRuntime.Foundation.Json
import CopilotRuntime.Foundation.Outcome

/-!
# Importing a conversation archive

An archive is read, checked against its manifest, given fresh ids and written to the
store file by file.

## Implementation notes

The disk may refuse any operation on it. A refused write leaves the directory it was made
in; only the files that were written in full are listed. Records are validated by
predicates that stand for the models of the records.
-/

namespace CopilotRuntime.Archive

open Foundation

abbrev Doc := List (String × Json)

def formatVersion : String := "0xcopilot.file-conversation-export/1"

def manifestName : String := "manifest.json"

def conversationPart (file : String) : String := "conversation/" ++ file

def metaFile : String := "conversation.json"

def messagesFile : String := "messages.jsonl"

def runsFile : String := "runs.jsonl"

def eventsFile : String := "events.jsonl"

def subagentsDir : String := "subagents"

def subagentsPart : String := "conversation/subagents/"

def objectsPart : String := "objects/"

structure ExportCounts where
  messages : Nat := 0
  runs : Nat := 0
  events : Nat := 0
  subagents : Nat := 0
  objects : Nat := 0

structure ExportManifest where
  formatVersion : String
  conversationId : String
  orgId : String
  userId : String
  counts : ExportCounts
  parts : Dict String String

structure ImportOutcome where
  conversationId : String
  sourceConversationId : String
  counts : ExportCounts

inductive Raised
  | archiveIntegrity (message : String)
  | undecodable
  | invalidRecord
  | refusedByDisk
  deriving DecidableEq

/-- What an import uses of the libraries, and what the store's records accept. -/
structure Setting (Bytes : Type) where
  sha256 : Bytes → String
  decode : Bytes → Option String
  detectDecode : Bytes → Option String
  loads : String → Option Json
  parseManifest : Bytes → Option ExportManifest
  safeKey : String → String
  uuid : Nat → String
  conversationRecord : Doc → Bool
  messageRecord : Doc → Bool
  runRecord : Doc → Bool
  runtimeEventEnvelope : Doc → Bool

/-- The characters that end a line. -/
def isLineBreak (c : Char) : Bool :=
  (10 ≤ c.val && c.val ≤ 13) || (28 ≤ c.val && c.val ≤ 30) || c.val == 0x85 || c.val == 0x2028 ||
    c.val == 0x2029

/-- The lines of a text: a carriage return and the line feed after it end one line. -/
def lineChars : List Char → List (List Char)
  | [] => []
  | '\r' :: '\n' :: rest => [] :: lineChars rest
  | c :: rest =>
      if isLineBreak c then [] :: lineChars rest
      else
        match lineChars rest with
        | [] => [[c]]
        | line :: lines => (c :: line) :: lines

def splitlines (text : String) : List String := (lineChars text.toList).map String.ofList

/-- What reading the archive file gives: the regular files in it, or none. -/
inductive ArchiveFile (Bytes : Type)
  | missing
  | unreadable
  | files (members : List (String × Bytes))

section
variable {Bytes : Type} (env : Setting Bytes)

/-! ### Verification -/

/-- The members of an archive by their names, the last of each name. -/
def membersOf (members : List (String × Bytes)) : Dict String Bytes :=
  members.foldl (fun known member => known.set member.1 member.2) Dict.empty

/-- The digest that the name of a blob's member gives. -/
def blobDigest (name : String) : String := String.ofList (name.toList.drop objectsPart.length)

def verifyPart (members : Dict String Bytes) (part : String × String) : Except Raised Unit :=
  match members.get? part.1 with
  | none => .error (.archiveIntegrity ("archive is missing part: " ++ part.1))
  | some data =>
      if env.sha256 data ≠ part.2 then
        .error (.archiveIntegrity ("archive part failed integrity check: " ++ part.1))
      else if Text.startsWith part.1 objectsPart ∧ env.sha256 data ≠ blobDigest part.1 then
        .error (.archiveIntegrity "archived blob failed content address")
      else .ok ()

def readAndVerify (orgId userId : String) (source : ArchiveFile Bytes) :
    Except Raised (ExportManifest × Dict String Bytes) :=
  match source with
  | .missing => .error (.archiveIntegrity "archive file does not exist")
  | .unreadable => .error (.archiveIntegrity "archive is not a readable tar.gz")
  | .files files =>
      let members := membersOf files
      match members.get? manifestName with
      | none => .error (.archiveIntegrity "archive has no manifest")
      | some raw =>
          match env.parseManifest raw with
          | none => .error (.archiveIntegrity "archive manifest is malformed")
          | some manifest =>
              if manifest.formatVersion ≠ formatVersion then
                .error (.archiveIntegrity "archive format version is not supported by this store")
              else if manifest.orgId ≠ orgId ∨ manifest.userId ≠ userId then
                .error (.archiveIntegrity "archive belongs to a different scope")
              else do
                manifest.parts.entries.forM (verifyPart env members)
                if (manifest.parts.get? (conversationPart metaFile)).isNone then
                  throw (.archiveIntegrity "archive has no conversation metadata")
                pure (manifest, members)

/-! ### Reading members -/

def loadJsonMember (members : Dict String Bytes) (name : String) : Except Raised Doc :=
  match members.get? name with
  | none => .error (.archiveIntegrity ("archive is missing part: " ++ name))
  | some raw =>
      match env.detectDecode raw with
      | none => .error .undecodable
      | some text =>
          match env.loads text with
          | none => .error (.archiveIntegrity ("archive part is not valid JSON: " ++ name))
          | some (.obj doc) => .ok doc
          | some _ => .error (.archiveIntegrity ("archive part is not a JSON object: " ++ name))

def decodeLine (line : String) : Except Raised Doc :=
  match env.loads line with
  | none => .error (.archiveIntegrity "archive JSONL line is malformed")
  | some (.obj doc) => .ok doc
  | some _ => .error (.archiveIntegrity "archive JSONL line is not an object")

def decodeJsonl (raw : Bytes) : Except Raised (List Doc) :=
  match env.decode raw with
  | none => .error .undecodable
  | some text =>
      (((splitlines text).map Text.strip).filter (· ≠ "")).mapM (decodeLine env)

def loadJsonlMember (members : Dict String Bytes) (name : String) : Except Raised (List Doc) :=
  match members.get? name with
  | none => .ok []
  | some raw => decodeJsonl env raw

/-- The members with one kind of name, in their order. -/
def membersUnder (members : Dict String Bytes) (part : String) : List (String × Bytes) :=
  members.entries.filter fun member => Text.startsWith member.1 part

/-! ### Fresh ids -/

def textField (doc : Doc) (name : String) : Option String :=
  match Json.lookup doc name with
  | some (.str value) => some value
  | _ => none

/-- Give an id that has none yet a fresh one. -/
def addFresh (mapping : Dict String String) (id : Option String) : Dict String String :=
  match id with
  | none => mapping
  | some id =>
      if (mapping.get? id).isSome then mapping else mapping.set id (env.uuid mapping.entries.length)

def buildIdRemap (sourceConversationId : String) (messageDocs runDocs : List Doc) :
    Dict String String :=
  let conversation := Dict.empty.set sourceConversationId (env.uuid 0)
  let runs := runDocs.foldl (fun mapping doc => addFresh env mapping (textField doc "run_id"))
    conversation
  messageDocs.foldl (fun mapping doc => addFresh env mapping (textField doc "message_id")) runs

mutual

/-- Replace every text that is an id by its fresh one; the names of fields stay. -/
def remapJson (mapping : Dict String String) : Json → Json
  | .str text => .str ((mapping.get? text).getD text)
  | .arr items => .arr (remapItems mapping items)
  | .obj fields => .obj (remapFields mapping fields)
  | other => other

def remapItems (mapping : Dict String String) : List Json → List Json
  | [] => []
  | item :: rest => remapJson mapping item :: remapItems mapping rest

def remapFields (mapping : Dict String String) : List (String × Json) → List (String × Json)
  | [] => []
  | (name, value) :: rest => (name, remapJson mapping value) :: remapFields mapping rest

end

def stripIdempotency (doc : Doc) : Doc :=
  doc.map fun field => if field.1 = "idempotency_key" then (field.1, .null) else field

/-! ### What is prepared before anything is written -/

structure Prepared (Bytes : Type) where
  conversationId : String
  directory : String × String
  metaDoc : Doc
  messageDocs : List Doc
  runDocs : List Doc
  eventDocs : List Doc
  subagentFiles : List (String × List Doc)
  objects : List (String × Bytes)

def accept (valid : Doc → Bool) (docs : List Doc) : Except Raised Unit :=
  if docs.all valid then .ok () else .error .invalidRecord

def prepare (manifest : ExportManifest) (members : Dict String Bytes)
    (exists? : String × String → Bool) : Except Raised (Prepared Bytes) := do
  let metaDoc ← loadJsonMember env members (conversationPart metaFile)
  let messageDocs ← loadJsonlMember env members (conversationPart messagesFile)
  let runDocs ← loadJsonlMember env members (conversationPart runsFile)
  let eventDocs ← loadJsonlMember env members (conversationPart eventsFile)
  let subagentFiles ← (membersUnder members subagentsPart).mapM fun member => do
    let docs ← decodeJsonl env member.2
    pure (member.1, docs)
  let mapping := buildIdRemap env manifest.conversationId messageDocs runDocs
  let conversationId := (mapping.get? manifest.conversationId).getD ""
  let metaDoc := stripIdempotency (remapFields mapping metaDoc)
  let runDocs := runDocs.map fun doc => stripIdempotency (remapFields mapping doc)
  let messageDocs := messageDocs.map (remapFields mapping)
  let eventDocs := eventDocs.map (remapFields mapping)
  accept env.conversationRecord [metaDoc]
  accept env.messageRecord messageDocs
  accept env.runRecord runDocs
  accept env.runtimeEventEnvelope eventDocs
  let directory := (env.safeKey manifest.orgId, env.safeKey conversationId)
  if exists? directory then
    throw (.archiveIntegrity "generated conversation id already exists")
  pure
    { conversationId := conversationId
      directory := directory
      metaDoc := metaDoc
      messageDocs := messageDocs
      runDocs := runDocs
      eventDocs := eventDocs
      subagentFiles := subagentFiles.map fun file => (file.1, file.2.map (remapFields mapping))
      objects := membersUnder members objectsPart }

/-! ### Writing -/

/-- The files of one conversation, by their names under its directory. -/
structure Session where
  metaDoc : Option Doc := none
  streams : Dict String (List Doc) := Dict.empty

/-- The directories on disk, the blobs, the materialised view and the index. -/
structure FileStore (Bytes : Type) where
  sessions : Dict (String × String) Session := Dict.empty
  objects : Dict String Bytes := Dict.empty
  view : Dict (String × String) Session := Dict.empty
  index : Dict (String × String) Session := Dict.empty

namespace FileStore

/-- What opening the store again shows: the directories on disk. -/
def reopened (s : FileStore Bytes) : FileStore Bytes :=
  { s with view := s.sessions, index := s.sessions }

end FileStore

inductive Action (Bytes : Type)
  | makeDirectory
  | writeMeta (doc : Doc)
  | writeLines (file : String) (docs : List Doc)
  | validateEvents (docs : List Doc)
  | putObject (data : Bytes)
  | loadConversation
  | rebuildIndex

/-- An action and the members that its bytes come from. -/
structure Sourced (Bytes : Type) where
  action : Action Bytes
  sources : List String := []

/-- The last segment of a member's name. -/
def taskKey (name : String) : String := ((Text.split name '/').getLast?).getD name

/-- The members the fresh ids are read from, as far as the archive has them. -/
def idSources (members : Dict String Bytes) : List String :=
  [conversationPart messagesFile, conversationPart runsFile].filter fun name =>
    (members.get? name).isSome

def streamActions (members : Dict String Bytes) (file : String) (docs : List Doc) :
    List (Sourced Bytes) :=
  if docs.isEmpty then []
  else [⟨.writeLines file docs, conversationPart file :: idSources members⟩]

def subagentActions (members : Dict String Bytes) (file : String × List Doc) :
    List (Sourced Bytes) :=
  [⟨.validateEvents file.2, []⟩,
    ⟨.writeLines (subagentsDir ++ "/" ++ taskKey file.1) file.2, file.1 :: idSources members⟩]

/-- What is done on disk, in order. -/
def actions (members : Dict String Bytes) (p : Prepared Bytes) : List (Sourced Bytes) :=
  [⟨.makeDirectory, []⟩, ⟨.writeMeta p.metaDoc, conversationPart metaFile :: idSources members⟩] ++
    streamActions members messagesFile p.messageDocs ++
    streamActions members runsFile p.runDocs ++
    streamActions members eventsFile p.eventDocs ++
    p.subagentFiles.flatMap (subagentActions members) ++
    p.objects.map (fun object => ⟨.putObject object.2, [object.1]⟩) ++
    [⟨.loadConversation, []⟩, ⟨.rebuildIndex, []⟩]

def sessionAt (s : FileStore Bytes) (directory : String × String) : Session :=
  (s.sessions.get? directory).getD {}

/-- The effect of an action that succeeds. -/
def perform (directory : String × String) (s : FileStore Bytes) : Action Bytes → FileStore Bytes
  | .makeDirectory => { s with sessions := s.sessions.set directory (sessionAt s directory) }
  | .writeMeta doc =>
      { s with
        sessions := s.sessions.set directory { sessionAt s directory with metaDoc := some doc } }
  | .writeLines file docs =>
      let session := sessionAt s directory
      { s with
        sessions := s.sessions.set directory
          { session with streams := session.streams.set file docs } }
  | .validateEvents _ => s
  | .putObject data =>
      if (s.objects.get? (env.sha256 data)).isSome then s
      else { s with objects := s.objects.set (env.sha256 data) data }
  | .loadConversation => { s with view := s.view.set directory (sessionAt s directory) }
  | .rebuildIndex => { s with index := s.view }

/-- What an action raises, where the disk refuses the operations it refuses. -/
def raises (refuses : Bool) : Action Bytes → Option Raised
  | .validateEvents docs => if docs.all env.runtimeEventEnvelope then none else some .invalidRecord
  | _ => if refuses then some .refusedByDisk else none

/-- What an import leaves: the store, the members whose bytes it used, and its result. -/
structure Imported (Bytes : Type) where
  store : FileStore Bytes
  used : List String := []
  result : Except Raised ImportOutcome

/-- Perform the actions in order, up to one that raises. -/
def performAll (disk : Nat → Bool) (directory : String × String) :
    Nat → FileStore Bytes → List (Sourced Bytes) → FileStore Bytes × List String × Option Raised
  | _, s, [] => (s, [], none)
  | n, s, next :: rest =>
      match raises env (disk n) next.action with
      | some raised => (s, [], some raised)
      | none =>
          let (s', used, raised) := performAll disk directory (n + 1)
            (perform env directory s next.action) rest
          (s', next.sources ++ used, raised)

/-- Import an archive, where the disk refuses the operations that `disk` names. -/
def importArchive (disk : Nat → Bool) (orgId userId : String) (source : ArchiveFile Bytes)
    (s : FileStore Bytes) : Imported Bytes :=
  match readAndVerify env orgId userId source with
  | .error raised => { store := s, result := .error raised }
  | .ok (manifest, members) =>
      match prepare env manifest members (fun directory => (s.sessions.get? directory).isSome) with
      | .error raised => { store := s, result := .error raised }
      | .ok p =>
          let (s', used, raised) := performAll env disk p.directory 0 s (actions members p)
          { store := s'
            used := used
            result := match raised with
              | some raised => .error raised
              | none => .ok
                  { conversationId := p.conversationId
                    sourceConversationId := manifest.conversationId
                    counts := manifest.counts } }

end

end CopilotRuntime.Archive
