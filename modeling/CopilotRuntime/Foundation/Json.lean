import CopilotRuntime.Foundation.Text

/-!
# JSON values

Values without floating-point numbers. Object fields keep the order in which
they were written, and a field is read by its first occurrence.
-/

namespace CopilotRuntime.Foundation

inductive Json : Type
  | null
  | bool (value : Bool)
  | int (value : Int)
  | str (value : String)
  | arr (items : List Json)
  | obj (fields : List (String × Json))

namespace Json

mutual

private def decEqJson : (a b : Json) → Decidable (a = b)
  | null, null => isTrue rfl
  | bool a, bool b => decidable_of_iff (a = b) (by simp)
  | int a, int b => decidable_of_iff (a = b) (by simp)
  | str a, str b => decidable_of_iff (a = b) (by simp)
  | arr a, arr b =>
      have := decEqItems a b
      decidable_of_iff (a = b) (by simp)
  | obj a, obj b =>
      have := decEqFields a b
      decidable_of_iff (a = b) (by simp)
  | null, bool _ | null, int _ | null, str _ | null, arr _ | null, obj _
  | bool _, null | bool _, int _ | bool _, str _ | bool _, arr _ | bool _, obj _
  | int _, null | int _, bool _ | int _, str _ | int _, arr _ | int _, obj _
  | str _, null | str _, bool _ | str _, int _ | str _, arr _ | str _, obj _
  | arr _, null | arr _, bool _ | arr _, int _ | arr _, str _ | arr _, obj _
  | obj _, null | obj _, bool _ | obj _, int _ | obj _, str _ | obj _, arr _ =>
      isFalse (by simp)

private def decEqItems : (a b : List Json) → Decidable (a = b)
  | [], [] => isTrue rfl
  | x :: xs, y :: ys =>
      have := decEqJson x y
      have := decEqItems xs ys
      decidable_of_iff (x = y ∧ xs = ys) (by simp)
  | [], _ :: _ | _ :: _, [] => isFalse (by simp)

private def decEqFields : (a b : List (String × Json)) → Decidable (a = b)
  | [], [] => isTrue rfl
  | (k, x) :: xs, (l, y) :: ys =>
      have := decEqJson x y
      have := decEqFields xs ys
      decidable_of_iff ((k = l ∧ x = y) ∧ xs = ys) (by simp)
  | [], _ :: _ | _ :: _, [] => isFalse (by simp)

end

instance : DecidableEq Json := decEqJson

/-- The value of an object's field, when the value is an object that has it. -/
def lookup : List (String × Json) → String → Option Json
  | [], _ => none
  | (name, value) :: rest, key => if name = key then some value else lookup rest key

/-- A text or nothing, as optional fields are written. -/
def ofOption : Option String → Json
  | some s => str s
  | none => null

def strings (items : List String) : Json := arr (items.map str)

def hexDigit (n : Nat) : Char := if n < 10 then Char.ofNat (48 + n) else Char.ofNat (87 + n)

/-- The characters a string literal needs for one character. -/
def escape (c : Char) : List Char :=
  if c = '"' then ['\\', '"']
  else if c = '\\' then ['\\', '\\']
  else if c = '\n' then ['\\', 'n']
  else if c = '\r' then ['\\', 'r']
  else if c = '\t' then ['\\', 't']
  else if c.toNat = 8 then ['\\', 'b']
  else if c.toNat = 12 then ['\\', 'f']
  else if c.toNat < 32 then ['\\', 'u', '0', '0', hexDigit (c.toNat / 16), hexDigit (c.toNat % 16)]
  else [c]

def quote (s : String) : String :=
  String.ofList (['"'] ++ s.toList.flatMap escape ++ ['"'])

/-- Insert a field before the first field with a larger name. -/
def insertField (field : String × Json) : List (String × Json) → List (String × Json)
  | [] => [field]
  | other :: rest =>
      if field.1 < other.1 then field :: other :: rest else other :: insertField field rest

/-- Fields in increasing order of their names. -/
def sortFields (fields : List (String × Json)) : List (String × Json) :=
  fields.foldl (fun sorted field => insertField field sorted) []

mutual

/-- Sort the fields of every object inside a value. -/
def canonical : Json → Json
  | arr items => arr (canonicalItems items)
  | obj fields => obj (sortFields (canonicalFields fields))
  | other => other

def canonicalItems : List Json → List Json
  | [] => []
  | item :: rest => canonical item :: canonicalItems rest

def canonicalFields : List (String × Json) → List (String × Json)
  | [] => []
  | (name, value) :: rest => (name, canonical value) :: canonicalFields rest

end

/-- The texts between the items of a value and between a name and its value. -/
structure Separators where
  item : String
  key : String

section Render
variable (sep : Separators)

mutual

/-- Write a value, fields in the order they are listed. -/
def render : Json → String
  | null => "null"
  | bool true => "true"
  | bool false => "false"
  | int n => toString n
  | str s => quote s
  | arr items => "[" ++ renderItems items ++ "]"
  | obj fields => "\x7b" ++ renderFields fields ++ "\x7d"

def renderItems : List Json → String
  | [] => ""
  | [item] => render item
  | item :: rest => render item ++ sep.item ++ renderItems rest

def renderFields : List (String × Json) → String
  | [] => ""
  | [(name, value)] => quote name ++ sep.key ++ render value
  | (name, value) :: rest =>
      quote name ++ sep.key ++ render value ++ sep.item ++ renderFields rest

end

end Render

/-- The canonical text of a value: sorted fields and no blanks. -/
def dumps (value : Json) : String := render ⟨",", ":"⟩ (canonical value)

/-- The text of a value with sorted fields and the default blanks. -/
def dumpsSpaced (value : Json) : String := render ⟨", ", ": "⟩ (canonical value)

end Json

end CopilotRuntime.Foundation

/-!
# Ledger payloads

A ledger event carries one JSON object. Each reader looks at one field and
returns nothing when the field has another type.
-/

namespace CopilotRuntime.Foundation

/-- The fields of one ledger payload. -/
abbrev Payload := List (String × Json)

namespace Payload

def string (p : Payload) (key : String) : Option String :=
  match Json.lookup p key with
  | some (.str s) => some s
  | _ => none

/-- An absent or null field reads as no value; any other non-text is an error. -/
def optionalString (p : Payload) (key : String) : Option (Option String) :=
  match Json.lookup p key with
  | none | some .null => some none
  | some (.str s) => some (some s)
  | some _ => none

def natural (p : Payload) (key : String) : Option Nat :=
  match Json.lookup p key with
  | some (.int n) => if 0 ≤ n then some n.toNat else none
  | _ => none

def boolean (p : Payload) (key : String) : Option Bool :=
  match Json.lookup p key with
  | none => some false
  | some (.bool b) => some b
  | some _ => none

/-- The truth value of a field, whatever its type. -/
def truthy (p : Payload) (key : String) : Bool :=
  match Json.lookup p key with
  | none | some .null => false
  | some (.bool b) => b
  | some (.int n) => n != 0
  | some (.str s) => !s.isEmpty
  | some (.arr items) => !items.isEmpty
  | some (.obj fields) => !fields.isEmpty

/-- A missing version means version one. -/
def versionOk (p : Payload) : Bool :=
  match Json.lookup p "v" with
  | none => true
  | some (.int n) => n == 1
  | some _ => false

def texts : List Json → Option (List String)
  | [] => some []
  | .str s :: rest => (texts rest).map (s :: ·)
  | _ :: _ => none

/-- Row keys are absent, or a non-empty list of distinct non-empty texts. -/
def optionalRowKeys (p : Payload) : Option (Option (List String)) :=
  match Json.lookup p "row_keys" with
  | none | some .null => some none
  | some (.arr items) =>
      match texts items with
      | some keys =>
          if !keys.isEmpty && keys.all (fun key => !key.isEmpty) && keys.Nodup then
            some (some keys)
          else none
      | none => none
  | some _ => none

end Payload

end CopilotRuntime.Foundation
