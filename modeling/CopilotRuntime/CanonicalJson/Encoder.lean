import CopilotRuntime.Foundation.JsonParser
import CopilotRuntime.Foundation.Outcome
import CopilotRuntime.Foundation.Utf16
import Mathlib.Data.List.Sort
import Mathlib.Data.String.Basic

/-!
# Canonical JSON

The text that digests are taken of: a value without blanks, the fields of its
objects in the order of their names. Integers that JavaScript cannot hold exactly
are refused.

## Implementation notes

Values are finite trees without fractions, so the checks for cycles, for names
that are no strings and for other types have nothing to refuse. The fields of an
object are rendered before they are put in order; the error of the first that
fails in that order is raised, as it is when they are rendered in order.
-/

namespace CopilotRuntime.CanonicalJson

open Foundation

structure CanonicalJsonError where
  message : String
  deriving DecidableEq

/-- The largest integer a double holds exactly with all below it. -/
def maxSafeInteger : Nat := 9007199254740991

def renderString (path value : String) : Except CanonicalJsonError String :=
  if value.toList.any fun char => 0xd800 ≤ char.toNat && char.toNat ≤ 0xdfff then
    .error ⟨path ++ " contains an unpaired Unicode surrogate"⟩
  else .ok (Json.quote value)

def renderInt (path : String) (value : Int) : Except CanonicalJsonError String :=
  if maxSafeInteger < value.natAbs then
    .error ⟨path ++ " integer exceeds the cross-language safe range"⟩
  else .ok (toString value)

/-- Fields in the order of their names. -/
def sortKeys {α : Type} (fields : List (String × α)) : List (String × α) :=
  fields.insertionSort fun a b => a.1 ≤ b.1

mutual

def render (path : String) : Json → Except CanonicalJsonError String
  | .null => .ok "null"
  | .bool true => .ok "true"
  | .bool false => .ok "false"
  | .str value => renderString path value
  | .int value => renderInt path value
  | .arr items => do
      let texts ← renderItems path 0 items
      return "[" ++ ",".intercalate texts ++ "]"
  | .obj fields => do
      let parts ← ((sortKeys (renderFields path fields)).map Prod.snd).mapM id
      return "\x7b" ++ ",".intercalate parts ++ "\x7d"

def renderItems (path : String) (index : Nat) : List Json → Except CanonicalJsonError (List String)
  | [] => .ok []
  | item :: rest => do
      let text ← render (path ++ "[" ++ toString index ++ "]") item
      let texts ← renderItems path (index + 1) rest
      return text :: texts

/-- What rendering a field gives, for each field. -/
def renderFields (path : String) :
    List (String × Json) → List (String × Except CanonicalJsonError String)
  | [] => []
  | (key, value) :: rest =>
      (key, do
        let encodedKey ← renderString (path ++ ".<key>") key
        let encodedValue ← render (path ++ "." ++ key) value
        return encodedKey ++ ":" ++ encodedValue) :: renderFields path rest

end

def canonicalJson (value : Json) : Except CanonicalJsonError String := render "$" value

/-! ### What is accepted and what is written -/

mutual

/-- Every integer is in the safe range. -/
def Safe : Json → Prop
  | .int value => value.natAbs ≤ maxSafeInteger
  | .arr items => SafeItems items
  | .obj fields => SafeFields fields
  | _ => True

def SafeItems : List Json → Prop
  | [] => True
  | item :: rest => Safe item ∧ SafeItems rest

def SafeFields : List (String × Json) → Prop
  | [] => True
  | (_, value) :: rest => Safe value ∧ SafeFields rest

end

mutual

/-- A value with the fields of all its objects in the order of their names. -/
def inKeyOrder : Json → Json
  | .arr items => .arr (inKeyOrderItems items)
  | .obj fields => .obj (sortKeys (inKeyOrderFields fields))
  | other => other

def inKeyOrderItems : List Json → List Json
  | [] => []
  | item :: rest => inKeyOrder item :: inKeyOrderItems rest

def inKeyOrderFields : List (String × Json) → List (String × Json)
  | [] => []
  | (key, value) :: rest => (key, inKeyOrder value) :: inKeyOrderFields rest

end

variable {items : List Json}

theorem safeItems_iff : SafeItems items ↔ ∀ item ∈ items, Safe item := by
  induction items with
  | nil => exact iff_of_true trivial nofun
  | cons item rest ih => rw [SafeItems, ih, List.forall_mem_cons]

variable {fields : List (String × Json)}

theorem safeFields_iff :
    SafeFields fields ↔ ∀ field ∈ fields, Safe field.2 := by
  induction fields with
  | nil => exact iff_of_true trivial nofun
  | cons field rest ih => rw [SafeFields, ih, List.forall_mem_cons]

theorem inKeyOrderItems_eq_map (items : List Json) :
    inKeyOrderItems items = items.map inKeyOrder := by
  induction items with
  | nil => rfl
  | cons item rest ih => rw [inKeyOrderItems, ih, List.map_cons]

/-- A field with its value in key order. -/
def orderField (field : String × Json) : String × Json := (field.1, inKeyOrder field.2)

theorem inKeyOrderFields_eq_map (fields : List (String × Json)) :
    inKeyOrderFields fields = fields.map orderField := by
  induction fields with
  | nil => rfl
  | cons field rest ih =>
      rw [inKeyOrderFields, ih, List.map_cons]
      rfl

/-- Characters are no surrogates. -/
theorem renderString_eq (path value : String) :
    renderString path value = .ok (Json.quote value) := by
  rw [renderString, if_neg]
  rw [List.any_eq_true]
  rintro ⟨char, -, hsurrogate⟩
  rw [Bool.and_eq_true, decide_eq_true_eq, decide_eq_true_eq] at hsurrogate
  exact Utf16.not_surrogate char hsurrogate

theorem sortKeys_map {α β : Type} {f : String × α → String × β} (hf : ∀ field, (f field).1 = field.1)
    (fields : List (String × α)) : sortKeys (fields.map f) = (sortKeys fields).map f := by
  refine (List.map_insertionSort _ _ f fields fun a _ b _ => ?_).symm
  rw [hf, hf]

theorem perm_sortKeys {α : Type} (fields : List (String × α)) : (sortKeys fields).Perm fields :=
  List.perm_insertionSort _ fields

/-- The text of a value, fields in order. -/
def textOf (v : Json) : String := Json.render Json.compact (inKeyOrder v)

def fieldTextOf (field : String × Json) : String :=
  Json.quote field.1 ++ ":" ++ textOf field.2

theorem renderItems_of_render (path : String) (index : Nat)
    (h : ∀ item ∈ items, ∀ path, render path item = .ok (textOf item)) :
    renderItems path index items = .ok (items.map textOf) := by
  induction items generalizing index with
  | nil => rfl
  | cons item rest ih =>
      obtain ⟨hitem, hrest⟩ := List.forall_mem_cons.mp h
      rw [renderItems, hitem, ih (index + 1) hrest]
      rfl

theorem renderFields_of_render (path : String)
    (h : ∀ field ∈ fields, ∀ path, render path field.2 = .ok (textOf field.2)) :
    renderFields path fields = fields.map fun field => (field.1, .ok (fieldTextOf field)) := by
  induction fields with
  | nil => rfl
  | cons field rest ih =>
      obtain ⟨hfield, hrest⟩ := List.forall_mem_cons.mp h
      rw [renderFields, renderString_eq, hfield, ih hrest, List.map_cons]
      rfl

theorem mapM_ok {ε α β : Type} (f : α → β) (xs : List α) :
    (xs.map fun x => (.ok (f x) : Except ε β)).mapM id = .ok (xs.map f) := by
  rw [mapM_eq_ok_iff, List.forall₂_map_left_iff, List.forall₂_map_right_iff]
  exact List.forall₂_same.mpr fun _ _ => rfl

theorem intercalate_items (items : List Json) :
    ",".intercalate (items.map textOf) =
      Json.renderItems Json.compact (items.map inKeyOrder) := by
  induction items with
  | nil => rfl
  | cons item rest ih =>
      cases rest with
      | nil => exact String.intercalate_singleton
      | cons next more =>
          rw [List.map_cons, List.map_cons, String.intercalate_cons_cons, ← List.map_cons, ih]
          exact (Json.renderItems_cons_cons Json.compact _ _ _).symm

theorem intercalate_fields (fields : List (String × Json)) :
    ",".intercalate (fields.map fieldTextOf) =
      Json.renderFields Json.compact (fields.map orderField) := by
  induction fields with
  | nil => rfl
  | cons field rest ih =>
      cases rest with
      | nil => exact String.intercalate_singleton
      | cons next more =>
          rw [List.map_cons, List.map_cons, String.intercalate_cons_cons, ← List.map_cons, ih]
          exact (Json.renderFields_cons_cons Json.compact _ _ _ _).symm

variable {v : Json}

/-- A value in the safe range is written with its fields in order. -/
theorem render_of_safe (h : Safe v) (path : String) :
    render path v = .ok (textOf v) := by
  induction v using Json.values generalizing path with
  | null => rfl
  | bool b =>
      cases b with
      | true => rfl
      | false => rfl
  | int n => exact if_neg (Nat.not_lt.mpr h)
  | str s => exact renderString_eq path s
  | arr items ih =>
      have hitems := fun item hmem => ih item hmem (safeItems_iff.mp h item hmem)
      rw [render, renderItems_of_render path 0 hitems]
      change Except.ok _ = _
      rw [intercalate_items, textOf, inKeyOrder, inKeyOrderItems_eq_map]
      rfl
  | obj fields ih =>
      have hfields := fun field hmem => ih field hmem (safeFields_iff.mp h field hmem)
      rw [render, renderFields_of_render path hfields,
        sortKeys_map (f := fun field => (field.1, Except.ok (fieldTextOf field))) fun _ => rfl,
        List.map_map]
      change ((sortKeys fields).map fun field => Except.ok (fieldTextOf field)).mapM id >>= _ = _
      rw [mapM_ok]
      change Except.ok _ = _
      rw [intercalate_fields, textOf, inKeyOrder, inKeyOrderFields_eq_map,
        sortKeys_map (f := orderField) fun _ => rfl]
      rfl

theorem forall_of_renderItems {path : String} {index : Nat} {texts : List String}
    (h : renderItems path index items = .ok texts) :
    ∀ item ∈ items, ∃ path text, render path item = .ok text := by
  induction items generalizing index texts with
  | nil => exact nofun
  | cons item rest ih =>
      rw [renderItems, bind_eq_ok_iff] at h
      obtain ⟨text, hitem, h⟩ := h
      obtain ⟨texts, hrest, -⟩ := bind_eq_ok_iff.mp h
      exact List.forall_mem_cons.mpr ⟨⟨_, text, hitem⟩, ih hrest⟩

theorem exists_mem_renderFields (path : String) {field : String × Json} (h : field ∈ fields) :
    ∃ outcome, (field.1, outcome) ∈ renderFields path fields ∧
      ∀ text, outcome = .ok text → ∃ path text, render path field.2 = .ok text := by
  induction fields with
  | nil => cases h
  | cons other rest ih =>
      rw [renderFields]
      obtain rfl | hrest := List.mem_cons.mp h
      · refine ⟨_, List.mem_cons_self, fun text houtcome => ?_⟩
        obtain ⟨_, -, houtcome⟩ := bind_eq_ok_iff.mp houtcome
        obtain ⟨text, hvalue, -⟩ := bind_eq_ok_iff.mp houtcome
        exact ⟨_, text, hvalue⟩
      · obtain ⟨outcome, hmem, houtcome⟩ := ih hrest
        exact ⟨outcome, List.mem_cons_of_mem _ hmem, houtcome⟩

theorem exists_ok_of_mapM {ε α : Type} {xs : List (Except ε α)} {ys : List α}
    (h : xs.mapM id = .ok ys) {x : Except ε α} (hx : x ∈ xs) : ∃ y, x = .ok y := by
  have hall := mapM_eq_ok_iff.mp h
  clear h
  induction hall with
  | nil => cases hx
  | cons hfirst _ ih =>
      obtain rfl | hrest := List.mem_cons.mp hx
      · exact ⟨_, hfirst⟩
      · exact ih hrest

/-- What is written is in the safe range. -/
theorem safe_of_render {path text : String} (h : render path v = .ok text) :
    Safe v := by
  induction v using Json.values generalizing path text with
  | null => trivial
  | bool b => trivial
  | int n =>
      by_contra hunsafe
      rw [render, renderInt, if_pos (Nat.lt_of_not_le hunsafe)] at h
      cases h
  | str s => trivial
  | arr items ih =>
      rw [render] at h
      obtain ⟨texts, htexts, -⟩ := bind_eq_ok_iff.mp h
      refine safeItems_iff.mpr fun item hmem => ?_
      obtain ⟨path, text, hitem⟩ := forall_of_renderItems htexts item hmem
      exact ih item hmem hitem
  | obj fields ih =>
      rw [render] at h
      obtain ⟨parts, hparts, -⟩ := bind_eq_ok_iff.mp h
      refine safeFields_iff.mpr fun field hmem => ?_
      obtain ⟨outcome, hmem', houtcome⟩ := exists_mem_renderFields path hmem
      have hsorted : outcome ∈ (sortKeys (renderFields path fields)).map Prod.snd :=
        List.mem_map.mpr ⟨_, (perm_sortKeys _).mem_iff.mpr hmem', rfl⟩
      obtain ⟨text, htext⟩ := exists_ok_of_mapM hparts hsorted
      obtain ⟨path, text, hvalue⟩ := houtcome text htext
      exact ih field hmem hvalue

theorem canonicalJson_eq_ok_iff {text : String} :
    canonicalJson v = .ok text ↔ Safe v ∧ text = textOf v := by
  constructor
  · intro h
    have hsafe := safe_of_render h
    rw [canonicalJson, render_of_safe hsafe] at h
    exact ⟨hsafe, (Except.ok.inj h).symm⟩
  · rintro ⟨hsafe, rfl⟩
    exact render_of_safe hsafe "$"

end CopilotRuntime.CanonicalJson
