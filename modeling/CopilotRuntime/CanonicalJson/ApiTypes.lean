import CopilotRuntime.Foundation.Outcome
import CopilotRuntime.Foundation.Utf16
import CopilotRuntime.Foundation.Json
import Mathlib.Algebra.Group.Nat.Defs
import Mathlib.Data.List.Sort

/-!
# Canonical JSON in the browser

The other encoder of canonical texts. Its strings are sequences of UTF-16 code
units, of which not all are texts, and its names are ordered by their code points.

## Implementation notes

Values are data: arrays without holes and plain objects, whose fields are listed
as the object lists its own keys. Numbers are integers, of any size.
-/

namespace CopilotRuntime.CanonicalJson

open Foundation

abbrev JsString : Type := List CodeUnit

/-- A literal. -/
def js (text : String) : JsString := Utf16.encode text

inductive JsValue : Type
  | null
  | boolean (value : Bool)
  | number (value : Int)
  | string (value : JsString)
  | array (items : List JsValue)
  | object (fields : List (JsString × JsValue))

namespace ApiTypes

structure CanonicalJsonError where
  message : JsString

def maxSafeInteger : Nat := 2 ^ 53 - 1

def isSafeInteger (value : Int) : Bool := value.natAbs ≤ maxSafeInteger

def rejectUnpairedSurrogates (path : JsString) : JsString → Except CanonicalJsonError Unit
  | [] => .ok ()
  | [code] =>
      if Utf16.isHigh code || Utf16.isLow code then
        .error ⟨path ++ js " contains an unpaired Unicode surrogate"⟩
      else .ok ()
  | code :: next :: rest =>
      if Utf16.isHigh code then
        if Utf16.isLow next then rejectUnpairedSurrogates path rest
        else .error ⟨path ++ js " contains an unpaired Unicode surrogate"⟩
      else if Utf16.isLow code then
        .error ⟨path ++ js " contains an unpaired Unicode surrogate"⟩
      else rejectUnpairedSurrogates path (next :: rest)

def comparePoints : List Nat → List Nat → Int
  | a :: left, b :: right => if a ≠ b then (a : Int) - b else comparePoints left right
  | left, right => (left.length : Int) - right.length

/-- Negative, zero or positive as the left string comes before, with or after the right one. -/
def compareCodePoints (left right : JsString) : Int :=
  comparePoints (Utf16.codePoints left) (Utf16.codePoints right)

/-- One code unit in a string literal. -/
def quoteUnit (unit : CodeUnit) : JsString :=
  if unit.val = 8 then js "\\b"
  else if unit.val = 9 then js "\\t"
  else if unit.val = 10 then js "\\n"
  else if unit.val = 12 then js "\\f"
  else if unit.val = 13 then js "\\r"
  else if unit.val = 34 then js "\\\""
  else if unit.val = 92 then js "\\\\"
  else if unit.val < 32 || Utf16.isHigh unit || Utf16.isLow unit then
    js (String.ofList ['\\', 'u', Json.hexDigit (unit.val / 4096), Json.hexDigit (unit.val / 256 % 16),
      Json.hexDigit (unit.val / 16 % 16), Json.hexDigit (unit.val % 16)])
  else [unit]

def quoteUnits : JsString → JsString
  | [] => []
  | [unit] => quoteUnit unit
  | unit :: next :: rest =>
      if Utf16.isHigh unit && Utf16.isLow next then unit :: next :: quoteUnits rest
      else quoteUnit unit ++ quoteUnits (next :: rest)

/-- A string as a JSON literal. -/
def stringify (value : JsString) : JsString := js "\"" ++ quoteUnits value ++ js "\""

/-- Fields in the order of the code points of their names. -/
def sortKeys {α : Type} (fields : List (JsString × α)) : List (JsString × α) :=
  fields.insertionSort fun a b => compareCodePoints a.1 b.1 ≤ 0

def rejectKeys (path : JsString) : List JsString → Except CanonicalJsonError Unit
  | [] => .ok ()
  | key :: rest => do
      rejectUnpairedSurrogates (path ++ js ".<key>") key
      rejectKeys path rest

mutual

def renderCanonical (path : JsString) : JsValue → Except CanonicalJsonError JsString
  | .null => .ok (js "null")
  | .boolean true => .ok (js "true")
  | .boolean false => .ok (js "false")
  | .string value => do
      rejectUnpairedSurrogates path value
      return stringify value
  | .number value =>
      if isSafeInteger value then .ok (js (toString value))
      else .error ⟨path ++ js " integer exceeds the cross-language safe range"⟩
  | .array items => do
      let texts ← renderItems path 0 items
      return js "[" ++ List.intercalate (js ",") texts ++ js "]"
  | .object fields => do
      rejectKeys path (fields.map Prod.fst)
      let parts ← ((sortKeys (renderFields path fields)).map Prod.snd).mapM id
      return js "\x7b" ++ List.intercalate (js ",") parts ++ js "\x7d"

def renderItems (path : JsString) (index : Nat) :
    List JsValue → Except CanonicalJsonError (List JsString)
  | [] => .ok []
  | item :: rest => do
      let text ← renderCanonical (path ++ js "[" ++ js (toString index) ++ js "]") item
      let texts ← renderItems path (index + 1) rest
      return text :: texts

def renderFields (path : JsString) :
    List (JsString × JsValue) → List (JsString × Except CanonicalJsonError JsString)
  | [] => []
  | (key, value) :: rest =>
      (key, do
        let text ← renderCanonical (path ++ js "." ++ key) value
        return stringify key ++ js ":" ++ text) :: renderFields path rest

end

def canonicalJson (value : JsValue) : Except CanonicalJsonError JsString :=
  renderCanonical (js "$") value

end ApiTypes

end CopilotRuntime.CanonicalJson
