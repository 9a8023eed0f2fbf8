import CopilotRuntime.Foundation.Dict
import CopilotRuntime.Foundation.HashChain
import CopilotRuntime.Foundation.Json

/-!
# The audit chain signer

An audit row is signed over the canonical text of its payload, the signature
of the row before it and the version of the signing key. The verifier walks a
list of rows, checks the links and recomputes every signature with the key its
version names.

## Implementation notes

The keyed hash is a parameter. The canonical text is ASCII, so its characters
are its bytes. A float is given by the text it is written as.
-/

namespace CopilotRuntime.Audit

open Foundation

abbrev Bytes := List UInt8

/-- A value of an audit payload. Values of other types cannot be signed. -/
inductive AuditValue
  | null
  | bool (value : Bool)
  | int (value : Int)
  | float (repr : String)
  | str (value : String)
  | datetime (isoformat : String)
  | bytes (value : Bytes)
  | uuid (value : String)
  | other (typeName : String)
  | arr (items : List AuditValue)
  | obj (fields : List (String × AuditValue))

/-- The fields of one audit payload. -/
abbrev AuditPayload := List (String × AuditValue)

/-! ### Canonical text -/

/-- Two lower-case hexadecimal digits for every byte. -/
def hex (value : Bytes) : List Char :=
  value.flatMap fun b => [Json.hexDigit (b.toNat / 16), Json.hexDigit (b.toNat % 16)]

/-- A number as four hexadecimal digits. -/
def hex4 (n : Nat) : List Char :=
  [Json.hexDigit (n / 4096 % 16), Json.hexDigit (n / 256 % 16), Json.hexDigit (n / 16 % 16),
    Json.hexDigit (n % 16)]

/-- The ASCII characters a string literal needs for one character. -/
def escape (c : Char) : List Char :=
  if c = '"' then ['\\', '"']
  else if c = '\\' then ['\\', '\\']
  else if c = '\n' then ['\\', 'n']
  else if c = '\r' then ['\\', 'r']
  else if c = '\t' then ['\\', 't']
  else if c.toNat = 8 then ['\\', 'b']
  else if c.toNat = 12 then ['\\', 'f']
  else if 32 ≤ c.toNat ∧ c.toNat < 127 then [c]
  else if c.toNat < 0x10000 then ['\\', 'u'] ++ hex4 c.toNat
  else
    ['\\', 'u'] ++ hex4 (0xd800 + (c.toNat - 0x10000) / 0x400) ++
      ['\\', 'u'] ++ hex4 (0xdc00 + (c.toNat - 0x10000) % 0x400)

def quote (s : String) : List Char := '"' :: s.toList.flatMap escape ++ ['"']

def intText (n : Int) : List Char :=
  if n < 0 then '-' :: Nat.toDigits 10 n.natAbs else Nat.toDigits 10 n.natAbs

/-- Insert a written field before the first one with a larger name. -/
def insertField {α : Type} (field : String × α) : List (String × α) → List (String × α)
  | [] => [field]
  | other :: rest =>
      if field.1 < other.1 then field :: other :: rest else other :: insertField field rest

/-- Fields in increasing order of their names. -/
def sortFields {α : Type} (fields : List (String × α)) : List (String × α) :=
  fields.foldl (fun sorted field => insertField field sorted) []

/-- Texts between commas. -/
def joined : List (List Char) → List Char
  | [] => []
  | [text] => text
  | text :: rest => text ++ ',' :: joined rest

/-- A written field with its name. -/
def fieldText (field : String × List Char) : List Char := quote field.1 ++ ':' :: field.2

/-- Written fields as one object, sorted by name. -/
def objectText (fields : List (String × List Char)) : List Char :=
  '{' :: joined ((sortFields fields).map fieldText) ++ ['}']

mutual

/-- The canonical text of a value, or nothing where a part of it cannot be written. -/
def dumps : AuditValue → Option (List Char)
  | .null => some "null".toList
  | .bool true => some "true".toList
  | .bool false => some "false".toList
  | .int n => some (intText n)
  | .float repr => some repr.toList
  | .str s => some (quote s)
  | .datetime isoformat => some (quote isoformat)
  | .bytes value => some (quote (String.ofList (hex value)))
  | .uuid value => some (quote value)
  | .other _ => none
  | .arr items => (dumpsItems items).map fun texts => '[' :: joined texts ++ [']']
  | .obj fields => (dumpsFields fields).map objectText

def dumpsItems : List AuditValue → Option (List (List Char))
  | [] => some []
  | item :: rest =>
      match dumps item, dumpsItems rest with
      | some text, some texts => some (text :: texts)
      | _, _ => none

def dumpsFields : List (String × AuditValue) → Option (List (String × List Char))
  | [] => some []
  | (name, value) :: rest =>
      match dumps value, dumpsFields rest with
      | some text, some texts => some ((name, text) :: texts)
      | _, _ => none

end

/-- The previous signature in an envelope; an empty one counts as absent. -/
def prevHashValue (prevHash : Option Bytes) : AuditValue :=
  match prevHash with
  | none | some [] => .null
  | some value => .str (String.ofList (hex value))

/-- The bytes that are signed. -/
def canonicalize (payload : AuditPayload) (prevHash : Option Bytes) (keyVersion : Int) :
    Option (List Char) :=
  dumps (.obj [("prev_hash", prevHashValue prevHash), ("key_version", .int keyVersion),
    ("payload", .obj payload)])

/-! ### Signing and verifying -/

structure ChainSignature where
  prevHash : Option Bytes
  signature : Bytes
  keyVersion : Int

structure ChainVerificationResult where
  ok : Bool
  brokenAtSeq : Option Int
  reason : Option String
  deriving DecidableEq

/-- One row of audit data with its chain fields. -/
structure AuditChainRow where
  seq : Int
  payload : AuditPayload
  prevHash : Option Bytes
  signature : Bytes
  keyVersion : Int

def minKeyBytes : Nat := 16

/-- The keys by version, and the version that signs. -/
structure AuditChainSigner where
  keys : Dict Int Bytes
  activeVersion : Int
  activeKey : (keys.get? activeVersion).isSome = true
  longEnough : ∀ version key, keys.get? version = some key → minKeyBytes ≤ key.length

namespace AuditChainSigner
variable (hmac : Bytes → List Char → Bytes)

/-- Sign a row given the signature of the row before it. -/
def sign (s : AuditChainSigner) (prevHash : Option Bytes) (payload : AuditPayload) :
    Option ChainSignature :=
  (canonicalize payload prevHash s.activeVersion).map fun canonical =>
    { prevHash
      signature := hmac ((s.keys.get? s.activeVersion).get s.activeKey) canonical
      keyVersion := s.activeVersion }

/-- Whether a row's signature is the one its key gives; nothing where signing it would raise. -/
def verifyRow (s : AuditChainSigner) (prevHash : Option Bytes) (payload : AuditPayload)
    (signature : Bytes) (keyVersion : Int) : Option Bool :=
  match s.keys.get? keyVersion with
  | none => some false
  | some key =>
      (canonicalize payload prevHash keyVersion).map fun canonical =>
        hmac key canonical == signature

/-- Verify rows after one with the given signature. -/
def verifyFrom (s : AuditChainSigner) : Option Bytes → List AuditChainRow →
    Option ChainVerificationResult
  | _, [] => some ⟨true, none, none⟩
  | prevHash, row :: rest =>
      if row.prevHash ≠ prevHash then some ⟨false, some row.seq, some "prev_hash mismatch"⟩
      else match s.verifyRow hmac row.prevHash row.payload row.signature row.keyVersion with
        | none => none
        | some false => some ⟨false, some row.seq, some "signature mismatch"⟩
        | some true => verifyFrom s (some row.signature) rest

def verifyChain (s : AuditChainSigner) (rows : List AuditChainRow) :
    Option ChainVerificationResult :=
  s.verifyFrom hmac none rows

end AuditChainSigner

/-! ### What the canonical text determines -/

/-- A separator outside both first parts splits two equal texts at the same place. -/
theorem append_cons_inj {sep : Char} {a b x y : List Char} (ha : sep ∉ a) (hb : sep ∉ b)
    (h : a ++ sep :: x = b ++ sep :: y) : a = b ∧ x = y := by
  induction a generalizing b with
  | nil =>
      cases b with
      | nil => exact ⟨rfl, (List.cons.inj h).2⟩
      | cons c rest =>
          have hc := (List.cons.inj h).1
          exact (hb (hc ▸ List.mem_cons_self)).elim
  | cons c rest ih =>
      cases b with
      | nil =>
          have hc := (List.cons.inj h).1
          exact (ha (hc ▸ List.mem_cons_self)).elim
      | cons d more =>
          obtain ⟨hcd, hrest⟩ := List.cons.inj h
          obtain ⟨hsame, hxy⟩ := ih (fun hmem => ha (List.mem_cons_of_mem _ hmem))
            (fun hmem => hb (List.mem_cons_of_mem _ hmem)) hrest
          exact ⟨by rw [hcd, hsame], hxy⟩

theorem toDigits_inj {m n : Nat} (h : Nat.toDigits 10 m = Nat.toDigits 10 n) : m = n := by
  have hm := Text.decimal?_toDigits m
  rw [h, Text.decimal?_toDigits n] at hm
  exact (Option.some.inj hm).symm

theorem isDigit_or_sign_of_mem_intText {n : Int} {c : Char} (h : c ∈ intText n) :
    c = '-' ∨ Text.isDigit c = true := by
  unfold intText at h
  split at h
  · rcases List.mem_cons.mp h with hsign | hdigit
    · exact .inl hsign
    · exact .inr (Text.isDigit_of_mem_toDigits hdigit)
  · exact .inr (Text.isDigit_of_mem_toDigits h)

theorem comma_notMem_intText (n : Int) : ',' ∉ intText n := by
  intro h
  rcases isDigit_or_sign_of_mem_intText h with hsign | hdigit
  · exact absurd hsign (by decide)
  · exact absurd hdigit (by decide)

theorem sign_notMem_toDigits (n : Nat) : '-' ∉ Nat.toDigits 10 n := by
  intro h
  exact absurd (Text.isDigit_of_mem_toDigits h) (by decide)

theorem intText_inj {m n : Int} (h : intText m = intText n) : m = n := by
  unfold intText at h
  split at h
  · next hm =>
      split at h
      · next hn =>
          have habs := toDigits_inj (List.cons.inj h).2
          omega
      · exact (sign_notMem_toDigits n.natAbs (h ▸ List.mem_cons_self)).elim
  · next hm =>
      split at h
      · exact (sign_notMem_toDigits m.natAbs (h ▸ List.mem_cons_self)).elim
      · next hn =>
          have habs := toDigits_inj h
          omega

theorem hexDigit_inj : ∀ m < 16, ∀ n < 16, Json.hexDigit m = Json.hexDigit n → m = n := by decide

theorem quoteMark_ne_hexDigit : ∀ n < 16, Json.hexDigit n ≠ '"' := by decide

theorem hex_inj {a b : Bytes} (h : hex a = hex b) : a = b := by
  induction a generalizing b with
  | nil =>
      cases b with
      | nil => rfl
      | cons y ys => cases h
  | cons x xs ih =>
      cases b with
      | nil => cases h
      | cons y ys =>
          have hcons : Json.hexDigit (x.toNat / 16) = Json.hexDigit (y.toNat / 16) ∧
              Json.hexDigit (x.toNat % 16) = Json.hexDigit (y.toNat % 16) ∧ hex xs = hex ys := by
            simpa [hex] using h
          have hx : x.toNat < 256 := x.toNat_lt
          have hy : y.toNat < 256 := y.toNat_lt
          have hhigh := hexDigit_inj _ (by omega) _ (by omega) hcons.1
          have hlow := hexDigit_inj _ (by omega) _ (by omega) hcons.2.1
          have hbyte : x = y := UInt8.toNat_inj.mp (by omega)
          rw [hbyte, ih hcons.2.2]

theorem escape_hexDigit : ∀ n < 16, escape (Json.hexDigit n) = [Json.hexDigit n] := by decide

theorem escape_of_mem_hex {value : Bytes} {c : Char} (h : c ∈ hex value) : escape c = [c] := by
  obtain ⟨b, _, hc⟩ := List.mem_flatMap.mp h
  have hb : b.toNat < 256 := b.toNat_lt
  rcases List.mem_cons.mp hc with rfl | hc
  · exact escape_hexDigit _ (by omega)
  · obtain rfl := List.mem_singleton.mp hc
    exact escape_hexDigit _ (by omega)

theorem quoteMark_notMem_hex (value : Bytes) : '"' ∉ hex value := by
  intro h
  obtain ⟨b, _, hc⟩ := List.mem_flatMap.mp h
  have hb : b.toNat < 256 := b.toNat_lt
  rcases List.mem_cons.mp hc with hc | hc
  · exact quoteMark_ne_hexDigit _ (by omega) hc.symm
  · exact quoteMark_ne_hexDigit _ (by omega) (List.mem_singleton.mp hc).symm

/-- Hexadecimal digits are quoted as they are. -/
theorem quote_hex (value : Bytes) : quote (String.ofList (hex value)) = '"' :: hex value ++ ['"'] := by
  unfold quote
  rw [String.toList_ofList]
  have hsame : (hex value).flatMap escape = hex value := by
    have hall : ∀ c ∈ hex value, escape c = [c] := fun c hc => escape_of_mem_hex hc
    generalize hex value = digits at hall
    induction digits with
    | nil => rfl
    | cons c rest ih =>
        rw [List.flatMap_cons, hall c List.mem_cons_self,
          ih fun d hd => hall d (List.mem_cons_of_mem _ hd)]
        rfl
  rw [hsame]

end CopilotRuntime.Audit
