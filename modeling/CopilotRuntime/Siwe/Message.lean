import CopilotRuntime.Foundation.Outcome
import CopilotRuntime.Foundation.Text

/-!
# Sign-in messages

The text that a wallet signs, read strictly: a preamble, the address, the statement,
and fields in a fixed order.

## Implementation notes

How Python folds letters, quotes texts, splits URLs and reads timestamps are
parameters, and so are the checksums of addresses and the recovery of signers.
-/

namespace CopilotRuntime.Siwe

open Foundation

structure SiweLibrary where
  lower : String → String
  repr : String → String
  /-- The scheme and the authority of a URL. -/
  urlsplit : String → String × String
  /-- An instant with its offset, or one without an offset. -/
  fromIsoformat : String → Option (Except Unit Int)
  isChecksumAddress : String → Bool
  toChecksumAddress : String → String
  recoverMessage : String → String → Except String String

structure SiweMessage where
  domain : String
  address : String
  statement : String
  uri : String
  version : String
  chainId : Int
  nonce : String
  issuedAt : String
  expirationTime : String
  notBefore : Option String := none
  requestId : Option String := none
  resources : List String := []
  deriving DecidableEq

variable (library : SiweLibrary)

def SiweMessage.addressLower (m : SiweMessage) : String := library.lower m.address

/-! ### Addresses -/

def isAddress (text : String) : Bool :=
  match text.toList with
  | '0' :: 'x' :: digits => digits.length = 40 && digits.all Text.isHex
  | _ => false

/-- The lower-case form of an address; one of mixed case must carry its checksum. -/
def normalizeWalletAddress (value : String) : Except String String :=
  let text := Text.strip value
  let hexPart := text.toList.drop 2
  if !isAddress text then
    .error "address must be 0x + 40 hex characters"
  else if hexPart ≠ hexPart.map Char.toLower ∧ hexPart ≠ hexPart.map Char.toUpper ∧
      library.isChecksumAddress text = false then
    .error "address fails EIP-55 checksum"
  else
    .ok (library.lower text)

def truncatedDisplayAddress (address : String) : String :=
  let checksummed := (library.toChecksumAddress address).toList
  String.ofList (checksummed.take 6 ++ '…' :: checksummed.drop (checksummed.length - 4))

/-! ### Parsing -/

def preamble : String := " wants you to sign in with your Ethereum account:"

/-- The name and the value of a field line, both sides of its first separator. -/
def partitionField : List Char → Option (List Char × List Char)
  | ':' :: ' ' :: value => some ([], value)
  | c :: rest => (partitionField rest).map fun (name, value) => (c :: name, value)
  | [] => none

def fieldLine (line : String) : Except String (String × String) :=
  match partitionField line.toList with
  | some (name, c :: value) => .ok (String.ofList name, String.ofList (c :: value))
  | _ => .error ("malformed field line: " ++ library.repr line)

/-- The fields up to the resources, and the lines after them. -/
def parseFields : List String → Except String (List (String × String) × List String)
  | [] => .ok ([], [])
  | line :: rest =>
      if line = "Resources:" then
        .ok ([("Resources", "")], rest)
      else do
        let field ← fieldLine library line
        let (fields, trailing) ← parseFields rest
        return (field :: fields, trailing)

def parseResource (line : String) : Except String String :=
  match line.toList with
  | '-' :: ' ' :: c :: uri => .ok (String.ofList (c :: uri))
  | _ => .error "unexpected trailing content in message"

def requiredOrder : List String := ["URI", "Version", "Chain ID", "Nonce", "Issued At"]

def optionalOrder : List String := ["Expiration Time", "Not Before", "Request ID", "Resources"]

/-- Every name is found among the optional ones after the names before it. -/
def checkTrailer : List String → List String → Except String Unit
  | [], _ => .ok ()
  | name :: names, allowed =>
      if name ∈ allowed then
        checkTrailer names ((allowed.dropWhile fun other => other ≠ name).drop 1)
      else
        .error ("unexpected or out-of-order field: " ++ library.repr name)

def checkOrder (names : List String) : Except String Unit :=
  if names.take requiredOrder.length = requiredOrder then
    checkTrailer library (names.drop requiredOrder.length) optionalOrder
  else
    .error "fields must appear in EIP-4361 order: URI, Version, Chain ID, Nonce, Issued At, ..."

def parseTimestamp (value fieldName : String) : Except String Int :=
  match library.fromIsoformat value with
  | none => .error (fieldName ++ " is not RFC 3339: " ++ library.repr value)
  | some (.error _) => .error (fieldName ++ " must carry a timezone offset")
  | some (.ok instant) => .ok instant

def chainNumber (raw : String) : Except String Nat :=
  let digits := raw.toList
  match if digits.length ≤ 15 && digits.all Text.isDigit then Text.decimal? digits else none with
  | some chainId => .ok chainId
  | none => .error "Chain ID must be a positive integer"

def requireThat (condition : Bool) (message : String) : Except String Unit :=
  if condition then .ok () else .error message

/-- The lines before the fields: domain, address and statement. -/
def parseHead (lines : List String) : Except String (String × String × String) := do
  let first := (lines.getD 0 "").toList
  let domain := String.ofList (first.take (first.length - preamble.toList.length))
  let address := lines.getD 1 ""
  let statement := lines.getD 3 ""
  requireThat (preamble.toList.isSuffixOf first) "first line must be the EIP-4361 preamble"
  requireThat (domain ≠ "" && domain = Text.strip domain && !Text.hasChar domain ' ')
    "domain must be a bare RFC 3986 authority"
  requireThat (address = Text.strip address) "address line carries stray whitespace"
  let _ ← (normalizeWalletAddress library address).mapError fun e => "address line: " ++ e
  requireThat (lines.getD 2 "" = "") "expected blank line after the address"
  requireThat (statement ≠ "") "statement is required"
  requireThat (lines.getD 4 "" = "") "expected blank line after the statement"
  return (domain, address, statement)

/-- Read a message in the exact form that is signed. -/
def parseSiweMessage (text : String) : Except String SiweMessage := do
  requireThat (!Text.isBlank text) "empty message"
  let lines := Text.split text '\n'
  requireThat (10 ≤ lines.length) "message too short for the required fields"
  let (domain, address, statement) ← parseHead library lines
  let (fields, trailing) ← parseFields library (lines.drop 5)
  let resources ← trailing.mapM parseResource
  checkOrder library (fields.map Prod.fst)
  let value := fun name => (fields.lookup name).getD ""
  requireThat (fields.lookup "Expiration Time").isSome "Expiration Time is required"
  requireThat (value "Version" = "1") "Version must be exactly '1'"
  let chainId ← chainNumber (value "Chain ID")
  requireThat (8 ≤ (value "Nonce").length && (value "Nonce").toList.all Text.isAsciiAlnum)
    "Nonce must be 8+ alphanumeric characters"
  let _ ← parseTimestamp library (value "Issued At") "Issued At"
  let _ ← parseTimestamp library (value "Expiration Time") "Expiration Time"
  let _ ← (fields.lookup "Not Before").toList.mapM fun notBefore =>
    parseTimestamp library notBefore "Not Before"
  requireThat (value "URI" ≠ "" && (library.urlsplit (value "URI")).1 ≠ "")
    "URI must be an absolute RFC 3986 URI"
  return {
    domain := domain
    address := address
    statement := statement
    uri := value "URI"
    version := "1"
    chainId := chainId
    nonce := value "Nonce"
    issuedAt := value "Issued At"
    expirationTime := value "Expiration Time"
    notBefore := fields.lookup "Not Before"
    requestId := fields.lookup "Request ID"
    resources := resources }

end CopilotRuntime.Siwe
