import CopilotRuntime.CanonicalJson.ApiTypes
import CopilotRuntime.CanonicalJson.KeyOrder
import Mathlib.Data.Set.List

/-!
# The two encoders agree

The browser's encoder gives the code units of the text that the other encoder
gives, for the same values and with the same errors. Strings whose surrogates
are not paired are no texts, and are refused.
-/

namespace CopilotRuntime.CanonicalJson

open Foundation

/-! ### Strings -/

@[simp] theorem js_append (s t : String) : js (s ++ t) = js s ++ js t := Utf16.encode_append s t

namespace ApiTypes

theorem rejectUnpairedSurrogates_eq_ok_iff {path value : JsString} :
    rejectUnpairedSurrogates path value = .ok () ↔ Utf16.isWellFormed value = true := by
  fun_induction rejectUnpairedSurrogates path value with
  | case1 => exact iff_of_true rfl rfl
  | case2 code h =>
      refine iff_of_false nofun ?_
      rw [Utf16.isWellFormed, ← Bool.not_or, h]
      exact Bool.false_ne_true
  | case3 code h =>
      refine iff_of_true rfl ?_
      rw [Utf16.isWellFormed, ← Bool.not_or, Bool.not_eq_true', Bool.eq_false_iff]
      exact h
  | case4 code next rest hhigh hlow ih =>
      rw [ih, Utf16.isWellFormed, if_pos hhigh, hlow, Bool.true_and]
  | case5 code next rest hhigh hlow =>
      refine iff_of_false nofun ?_
      rw [Utf16.isWellFormed, if_pos hhigh, Bool.eq_false_iff.mpr hlow, Bool.false_and]
      exact Bool.false_ne_true
  | case6 code next rest hhigh hlow =>
      refine iff_of_false nofun ?_
      rw [Utf16.isWellFormed, if_neg hhigh, hlow, Bool.not_true, Bool.false_and]
      exact Bool.false_ne_true
  | case7 code next rest hhigh hlow ih =>
      rw [ih, Utf16.isWellFormed, if_neg hhigh, Bool.eq_false_iff.mpr hlow, Bool.not_false,
        Bool.true_and]

theorem rejectUnpairedSurrogates_js (path : JsString) (s : String) :
    rejectUnpairedSurrogates path (js s) = .ok () :=
  rejectUnpairedSurrogates_eq_ok_iff.mpr (Utf16.isWellFormed_encode s)

/-- Code points are compared as the characters are. -/
theorem comparePoints_le_zero_iff (left right : List Char) :
    comparePoints (left.map Char.toNat) (right.map Char.toNat) ≤ 0 ↔ ¬right < left := by
  induction left generalizing right with
  | nil =>
      refine iff_of_true ?_ (List.not_lt_nil right)
      rw [List.map_nil, comparePoints]
      · simp
      · simp
  | cons a rest ih =>
      cases right with
      | nil =>
          refine iff_of_false ?_ (not_not_intro (List.nil_lt_cons a rest))
          rw [List.map_nil, comparePoints]
          · simp
          · simp
      | cons b more =>
          have hlt : b < a ↔ b.toNat < a.toNat := Iff.rfl
          rw [List.map_cons, List.map_cons, comparePoints, List.cons_lt_cons_iff, hlt]
          by_cases hab : a.toNat = b.toNat
          · obtain rfl := Char.toNat_inj.mp hab
            rw [if_neg (not_not_intro rfl), ih, iff_comm]
            simp
          · have hne : b ≠ a := fun heq => hab (congrArg Char.toNat heq).symm
            rw [if_pos hab]
            simp only [hne, false_and, or_false]
            omega

theorem compareCodePoints_js (s t : String) :
    compareCodePoints (js s) (js t) ≤ 0 ↔ s ≤ t := by
  rw [compareCodePoints, js, js, Utf16.codePoints_encode, Utf16.codePoints_encode,
    comparePoints_le_zero_iff, ← String.lt_iff_toList_lt, not_lt]

/-! ### Literals -/

theorem quoteUnits_cons_of_not_high {unit : CodeUnit} (h : Utf16.isHigh unit = false)
    (rest : JsString) : quoteUnits (unit :: rest) = quoteUnit unit ++ quoteUnits rest := by
  cases rest with
  | nil => exact (List.append_nil _).symm
  | cons next rest =>
      rw [quoteUnits, h, Bool.false_and]
      exact if_neg Bool.false_ne_true

theorem quoteUnit_control : ∀ n : Fin 32, quoteUnit ⟨n.val, by omega⟩ =
    (Json.escape (Char.ofNat n.val)).flatMap Utf16.encodeChar := by decide

/-- A code unit of a character that has one is quoted as the character is. -/
theorem quoteUnit_char {c : Char} (h : c.toNat < 0x10000) :
    quoteUnit ⟨c.toNat, h⟩ = (Json.escape c).flatMap Utf16.encodeChar := by
  by_cases hcontrol : c.toNat < 32
  · have hquoted := quoteUnit_control ⟨c.toNat, hcontrol⟩
    dsimp only at hquoted
    rw [Char.ofNat_toNat] at hquoted
    exact hquoted
  by_cases hquote : c = '"'
  · subst hquote
    rfl
  by_cases hbackslash : c = '\\'
  · subst hbackslash
    rfl
  have hne : ∀ d : Char, c ≠ d → c.toNat ≠ d.toNat := fun d hd heq => hd (Char.toNat_inj.mp heq)
  have hquote' : c.toNat ≠ 34 := hne '"' hquote
  have hbackslash' : c.toNat ≠ 92 := hne '\\' hbackslash
  obtain ⟨hhigh, hlow⟩ := Utf16.plain_of_small h
  have hunit : quoteUnit ⟨c.toNat, h⟩ = [⟨c.toNat, h⟩] := by
    simp only [quoteUnit, hhigh, hlow, hquote', hbackslash', Bool.or_false, decide_eq_true_eq]
    rw [if_neg (by omega), if_neg (by omega), if_neg (by omega), if_neg (by omega),
      if_neg (by omega), if_neg not_false, if_neg not_false, if_neg hcontrol]
  have hescape : Json.escape c = [c] := by
    have hsmall : ∀ d : Char, d.toNat < 32 → c ≠ d := by
      rintro d hd rfl
      exact hcontrol hd
    rw [Json.escape, if_neg hquote, if_neg hbackslash, if_neg (hsmall _ (by decide)),
      if_neg (hsmall _ (by decide)), if_neg (hsmall _ (by decide)), if_neg (by omega),
      if_neg (by omega), if_neg hcontrol]
  rw [hunit, hescape, List.flatMap_singleton, Utf16.encodeChar, dif_pos h]

theorem quoteUnits_encodeChar (c : Char) (rest : JsString) :
    quoteUnits (Utf16.encodeChar c ++ rest) =
      (Json.escape c).flatMap Utf16.encodeChar ++ quoteUnits rest := by
  by_cases h : c.toNat < 0x10000
  · rw [← quoteUnit_char h, Utf16.encodeChar, dif_pos h, List.singleton_append,
      quoteUnits_cons_of_not_high (Utf16.plain_of_small h).1]
  · have hescape : Json.escape c = [c] := by
      have hsmall : ∀ d : Char, d.toNat < 0x10000 → c ≠ d := by
        rintro d hd rfl
        exact h hd
      rw [Json.escape, if_neg (hsmall _ (by decide)), if_neg (hsmall _ (by decide)),
        if_neg (hsmall _ (by decide)), if_neg (hsmall _ (by decide)),
        if_neg (hsmall _ (by decide)), if_neg (by omega), if_neg (by omega), if_neg (by omega)]
    rw [hescape, List.flatMap_singleton, Utf16.encodeChar, dif_neg h, List.cons_append,
      List.singleton_append, quoteUnits, Utf16.isHigh_highHalf, Utf16.isLow_lowHalf]
    rfl

/-- A text has the same literal in both encoders. -/
theorem stringify_js (s : String) : stringify (js s) = js (Json.quote s) := by
  have hunits : ∀ chars : List Char, quoteUnits (chars.flatMap Utf16.encodeChar) =
      (chars.flatMap Json.escape).flatMap Utf16.encodeChar := by
    intro chars
    induction chars with
    | nil => rfl
    | cons c rest ih =>
        rw [List.flatMap_cons, quoteUnits_encodeChar, ih, List.flatMap_cons, List.flatMap_append]
  have htext : quoteUnits (js s) = (s.toList.flatMap Json.escape).flatMap Utf16.encodeChar :=
    hunits s.toList
  have hquote : js (Json.quote s) = js "\"" ++ (s.toList.flatMap Json.escape).flatMap
      Utf16.encodeChar ++ js "\"" := by
    rw [js, Json.quote, Utf16.encode_ofList, List.flatMap_append, List.flatMap_append]
    rfl
  rw [stringify, htext, hquote]

end ApiTypes

/-! ### Values -/

mutual

/-- A value as the browser holds it. -/
def toJs : Json → JsValue
  | .null => .null
  | .bool b => .boolean b
  | .int n => .number n
  | .str s => .string (js s)
  | .arr items => .array (toJsItems items)
  | .obj fields => .object (toJsFields fields)

def toJsItems : List Json → List JsValue
  | [] => []
  | item :: rest => toJs item :: toJsItems rest

def toJsFields : List (String × Json) → List (JsString × JsValue)
  | [] => []
  | (key, value) :: rest => (js key, toJs value) :: toJsFields rest

end

theorem toJsItems_eq_map (items : List Json) : toJsItems items = items.map toJs := by
  induction items with
  | nil => rfl
  | cons item rest ih => rw [toJsItems, ih, List.map_cons]

def toJsField (field : String × Json) : JsString × JsValue := (js field.1, toJs field.2)

theorem toJsFields_eq_map (fields : List (String × Json)) :
    toJsFields fields = fields.map toJsField := by
  induction fields with
  | nil => rfl
  | cons field rest ih =>
      rw [toJsFields, ih, List.map_cons]
      rfl

def jsError (e : CanonicalJsonError) : ApiTypes.CanonicalJsonError := ⟨js e.message⟩

/-- What the browser's encoder gives where the other gives an outcome. -/
def jsOutcome (outcome : Except CanonicalJsonError String) :
    Except ApiTypes.CanonicalJsonError JsString :=
  translate jsError js outcome

def jsPart (part : String × Except CanonicalJsonError String) :
    JsString × Except ApiTypes.CanonicalJsonError JsString :=
  (js part.1, jsOutcome part.2)

theorem js_intercalate (texts : List String) :
    js (",".intercalate texts) = List.intercalate (js ",") (texts.map js) := by
  induction texts with
  | nil => rfl
  | cons text rest ih =>
      cases rest with
      | nil => rw [String.intercalate_singleton, List.map_singleton, List.intercalate_singleton]
      | cons next more =>
          rw [String.intercalate_cons_cons, js_append, js_append, ih]
          simp only [List.map_cons, List.intercalate_cons_cons, List.append_assoc]

theorem sortKeys_js (parts : List (String × Except CanonicalJsonError String)) :
    ApiTypes.sortKeys (parts.map jsPart) = (sortKeys parts).map jsPart := by
  refine (List.map_insertionSort _ _ jsPart parts fun a _ b _ => ?_).symm
  exact (ApiTypes.compareCodePoints_js a.1 b.1).symm

theorem rejectKeys_js (path : JsString) (keys : List String) :
    ApiTypes.rejectKeys path (keys.map js) = .ok () := by
  induction keys with
  | nil => rfl
  | cons key rest ih =>
      rw [List.map_cons, ApiTypes.rejectKeys, ApiTypes.rejectUnpairedSurrogates_js]
      exact ih

theorem renderItems_js {items : List Json}
    (h : ∀ item ∈ items, ∀ path,
      ApiTypes.renderCanonical (js path) (toJs item) = jsOutcome (render path item))
    (path : String) (index : Nat) :
    ApiTypes.renderItems (js path) index (items.map toJs) =
      translate jsError (List.map js) (renderItems path index items) := by
  induction items generalizing index with
  | nil => rfl
  | cons item rest ih =>
      obtain ⟨hitem, hrest⟩ := List.forall_mem_cons.mp h
      have hpath : js path ++ js "[" ++ js (toString index) ++ js "]" =
          js (path ++ "[" ++ toString index ++ "]") := by
        rw [js_append, js_append, js_append]
      rw [List.map_cons, ApiTypes.renderItems, renderItems, hpath, hitem, ih hrest]
      symm
      refine translate_bind jsError fun text _ => ?_
      exact translate_bind jsError fun texts _ => rfl

theorem renderFields_js {fields : List (String × Json)}
    (h : ∀ field ∈ fields, ∀ path,
      ApiTypes.renderCanonical (js path) (toJs field.2) = jsOutcome (render path field.2))
    (path : String) :
    ApiTypes.renderFields (js path) (fields.map toJsField) =
      (renderFields path fields).map jsPart := by
  induction fields with
  | nil => rfl
  | cons field rest ih =>
      obtain ⟨hfield, hrest⟩ := List.forall_mem_cons.mp h
      obtain ⟨key, value⟩ := field
      have hpath : js path ++ js "." ++ js key = js (path ++ "." ++ key) := by
        rw [js_append, js_append]
      have hpart : (ApiTypes.renderCanonical (js (path ++ "." ++ key)) (toJs value) >>=
          fun text => pure (ApiTypes.stringify (js key) ++ js ":" ++ text)) =
          jsOutcome (renderString (path ++ ".<key>") key >>= fun encodedKey =>
            render (path ++ "." ++ key) value >>= fun encodedValue =>
              pure (encodedKey ++ ":" ++ encodedValue)) := by
        rw [renderString_eq, hfield, ApiTypes.stringify_js]
        symm
        change translate jsError js (render (path ++ "." ++ key) value >>= fun text =>
          pure (Json.quote key ++ ":" ++ text)) = _
        refine translate_bind jsError fun text _ => ?_
        change Except.ok (js (Json.quote key ++ ":" ++ text)) = _
        rw [js_append, js_append]
        rfl
      rw [List.map_cons, toJsField, ApiTypes.renderFields, renderFields, ih hrest, List.map_cons,
        hpath, hpart]
      rfl

/-- The browser's encoder does what the other does. -/
theorem renderCanonical_js (v : Json) (path : String) :
    ApiTypes.renderCanonical (js path) (toJs v) = jsOutcome (render path v) := by
  induction v using Json.values generalizing path with
  | null => rfl
  | bool b =>
      cases b with
      | true => rfl
      | false => rfl
  | int n =>
      have hsame : ApiTypes.isSafeInteger n = true ↔ ¬maxSafeInteger < n.natAbs := by
        rw [ApiTypes.isSafeInteger, decide_eq_true_eq, Nat.not_lt]
        rfl
      rw [toJs, ApiTypes.renderCanonical, render, renderInt]
      by_cases hsafe : maxSafeInteger < n.natAbs
      · rw [if_neg (fun h => hsame.mp h hsafe), if_pos hsafe, ← js_append]
        rfl
      · rw [if_pos (hsame.mpr hsafe), if_neg hsafe]
        rfl
  | str s =>
      rw [toJs, ApiTypes.renderCanonical, ApiTypes.rejectUnpairedSurrogates_js, render,
        renderString_eq, ApiTypes.stringify_js]
      rfl
  | arr items ih =>
      rw [toJs, toJsItems_eq_map, ApiTypes.renderCanonical, render, renderItems_js ih]
      symm
      refine translate_bind jsError fun texts _ => ?_
      rw [← js_intercalate, ← js_append, ← js_append]
      rfl
  | obj fields ih =>
      have hkeys : (fields.map toJsField).map Prod.fst = (fields.map Prod.fst).map js := by
        rw [List.map_map, List.map_map]
        rfl
      have hparts : ((sortKeys (renderFields path fields)).map jsPart).map Prod.snd =
          ((sortKeys (renderFields path fields)).map Prod.snd).map jsOutcome := by
        rw [List.map_map, List.map_map]
        rfl
      rw [toJs, toJsFields_eq_map, ApiTypes.renderCanonical, hkeys, rejectKeys_js,
        renderFields_js ih, sortKeys_js, hparts]
      have hmapM := translate_mapM jsError js ((sortKeys (renderFields path fields)).map Prod.snd)
      change (((sortKeys (renderFields path fields)).map Prod.snd).map
        (translate jsError js)).mapM id >>= _ = _
      rw [← hmapM, render]
      symm
      refine translate_bind jsError fun texts _ => ?_
      rw [← js_intercalate, ← js_append, ← js_append]
      rfl

/-! ### Only texts are accepted -/

/-- Induction over the values inside a value. -/
theorem JsValue.values {motive : JsValue → Prop} (null : motive .null)
    (boolean : ∀ b, motive (.boolean b)) (number : ∀ n, motive (.number n))
    (string : ∀ s, motive (.string s))
    (array : ∀ items, (∀ item ∈ items, motive item) → motive (.array items))
    (object : ∀ fields : List (JsString × JsValue), (∀ field ∈ fields, motive field.2) →
      motive (.object fields)) (v : JsValue) : motive v :=
  @JsValue.rec motive (fun items => ∀ item ∈ items, motive item)
    (fun fields => ∀ field ∈ fields, motive field.2) (fun field => motive field.2)
    null boolean number string array object
    nofun (fun _ _ hitem hrest => List.forall_mem_cons.mpr ⟨hitem, hrest⟩)
    nofun (fun _ _ hfield hrest => List.forall_mem_cons.mpr ⟨hfield, hrest⟩)
    (fun _ _ hvalue => hvalue) v

namespace ApiTypes

theorem forall_of_renderItems {items : List JsValue} {path : JsString} {index : Nat}
    {texts : List JsString} (h : renderItems path index items = .ok texts) :
    ∀ item ∈ items, ∃ path text, renderCanonical path item = .ok text := by
  induction items generalizing index texts with
  | nil => exact nofun
  | cons item rest ih =>
      rw [renderItems, bind_eq_ok_iff] at h
      obtain ⟨text, hitem, h⟩ := h
      obtain ⟨texts, hrest, -⟩ := bind_eq_ok_iff.mp h
      exact List.forall_mem_cons.mpr ⟨⟨_, text, hitem⟩, ih hrest⟩

theorem exists_mem_renderFields {fields : List (JsString × JsValue)} (path : JsString)
    {field : JsString × JsValue} (h : field ∈ fields) :
    ∃ outcome, (field.1, outcome) ∈ renderFields path fields ∧
      ∀ text, outcome = .ok text → ∃ path text, renderCanonical path field.2 = .ok text := by
  induction fields with
  | nil => cases h
  | cons other rest ih =>
      rw [renderFields]
      obtain rfl | hrest := List.mem_cons.mp h
      · refine ⟨_, List.mem_cons_self, fun text houtcome => ?_⟩
        obtain ⟨text, hvalue, -⟩ := bind_eq_ok_iff.mp houtcome
        exact ⟨_, text, hvalue⟩
      · obtain ⟨outcome, hmem, houtcome⟩ := ih hrest
        exact ⟨outcome, List.mem_cons_of_mem _ hmem, houtcome⟩

theorem forall_of_rejectKeys {keys : List JsString} {path : JsString}
    (h : rejectKeys path keys = .ok ()) : ∀ key ∈ keys, Utf16.isWellFormed key = true := by
  induction keys with
  | nil => exact nofun
  | cons key rest ih =>
      rw [rejectKeys, bind_eq_ok_iff] at h
      obtain ⟨_, hkey, hrest⟩ := h
      exact List.forall_mem_cons.mpr ⟨rejectUnpairedSurrogates_eq_ok_iff.mp hkey, ih hrest⟩

/-- What the browser's encoder accepts is a value of texts. -/
theorem exists_toJs {w : JsValue} {path text : JsString}
    (h : renderCanonical path w = .ok text) : ∃ v, toJs v = w := by
  induction w using JsValue.values generalizing path text with
  | null => exact ⟨.null, rfl⟩
  | boolean b => exact ⟨.bool b, rfl⟩
  | number n => exact ⟨.int n, rfl⟩
  | string s =>
      rw [renderCanonical, bind_eq_ok_iff] at h
      obtain ⟨_, haccepted, -⟩ := h
      obtain ⟨s, rfl⟩ := Utf16.exists_encode (rejectUnpairedSurrogates_eq_ok_iff.mp haccepted)
      exact ⟨.str s, rfl⟩
  | array items ih =>
      rw [renderCanonical, bind_eq_ok_iff] at h
      obtain ⟨texts, htexts, -⟩ := h
      have hitems : ∀ item ∈ items, ∃ v, toJs v = item := by
        intro item hmem
        obtain ⟨path, text, hitem⟩ := forall_of_renderItems htexts item hmem
        exact ih item hmem hitem
      obtain ⟨values, rfl⟩ := (Set.range_list_map _).superset hitems
      exact ⟨.arr values, by rw [toJs, toJsItems_eq_map]⟩
  | object fields ih =>
      rw [renderCanonical, bind_eq_ok_iff] at h
      obtain ⟨_, hkeys, h⟩ := h
      obtain ⟨parts, hparts, -⟩ := bind_eq_ok_iff.mp h
      have hfields : ∀ field ∈ fields, ∃ v, toJsField v = field := by
        intro field hmem
        have hkey := forall_of_rejectKeys hkeys field.1 (List.mem_map_of_mem hmem)
        obtain ⟨key, hkey⟩ := Utf16.exists_encode hkey
        obtain ⟨outcome, hmem', houtcome⟩ := exists_mem_renderFields path hmem
        have hsorted : outcome ∈ (sortKeys (renderFields path fields)).map Prod.snd :=
          List.mem_map.mpr ⟨_, (List.perm_insertionSort _ _).mem_iff.mpr hmem', rfl⟩
        obtain ⟨text, htext⟩ := exists_ok_of_mapM hparts hsorted
        obtain ⟨path, text, hvalue⟩ := houtcome text htext
        obtain ⟨value, hvalue⟩ := ih field hmem hvalue
        exact ⟨(key, value), Prod.ext hkey hvalue⟩
      obtain ⟨values, rfl⟩ := (Set.range_list_map _).superset hfields
      exact ⟨.obj values, by rw [toJs, toJsFields_eq_map]⟩

end ApiTypes

/-! ### Both encoders -/

/-- A value whose objects have no name twice. -/
structure JsonValue where
  value : Json
  distinct : value.KeysDistinct

theorem jsOutcome_eq_ok_iff {outcome : Except CanonicalJsonError String} {text : JsString} :
    jsOutcome outcome = .ok text ↔ ∃ s, outcome = .ok s ∧ js s = text := by
  cases outcome with
  | ok s => simp [jsOutcome, Foundation.translate]
  | error e => simp [jsOutcome, Foundation.translate]

/-- Canonical texts are equal exactly for values that differ in key order only, are read back and
written again as they were, and are those the browser gives, which accepts the same values. -/
theorem canonical_json_injective_cross_language :
    (∀ (v w : JsonValue) (s t : String), canonicalJson v.value = .ok s →
      canonicalJson w.value = .ok t → (s = t ↔ SameUpToKeyOrder v.value w.value)) ∧
    (∀ (v : JsonValue) (s : String), canonicalJson v.value = .ok s →
      ∃ w : JsonValue, Json.parse s = some w.value ∧ canonicalJson w.value = .ok s) ∧
    (∀ v : Json, ApiTypes.canonicalJson (toJs v) = jsOutcome (canonicalJson v)) ∧
    ∀ w : JsValue, (∃ t, ApiTypes.canonicalJson w = .ok t) ↔
      ∃ v, toJs v = w ∧ ∃ s, canonicalJson v = .ok s := by
  refine ⟨fun v w s t hs ht => ?_, fun v s hs => ?_, fun v => renderCanonical_js v "$",
    fun w => ⟨?_, ?_⟩⟩
  · rw [(canonicalJson_eq_ok_iff.mp hs).2, (canonicalJson_eq_ok_iff.mp ht).2]
    exact textOf_eq_iff v.distinct w.distinct
  · obtain ⟨hsafe, rfl⟩ := canonicalJson_eq_ok_iff.mp hs
    refine ⟨⟨inKeyOrder v.value, distinct_inKeyOrder v.distinct⟩, parse_textOf v.distinct, ?_⟩
    refine canonicalJson_eq_ok_iff.mpr ⟨safe_inKeyOrder hsafe, ?_⟩
    rw [textOf, textOf, inKeyOrder_inKeyOrder v.distinct]
  · rintro ⟨t, ht⟩
    obtain ⟨v, rfl⟩ := ApiTypes.exists_toJs ht
    have hsame := (renderCanonical_js v "$").symm.trans ht
    obtain ⟨s, hs, -⟩ := jsOutcome_eq_ok_iff.mp hsame
    exact ⟨v, rfl, s, hs⟩
  · rintro ⟨v, rfl, s, hs⟩
    exact ⟨js s, (renderCanonical_js v "$").trans (jsOutcome_eq_ok_iff.mpr ⟨s, hs, rfl⟩)⟩

/-- One object in two orders. -/
theorem canonical_json_injective_cross_language_sample :
    SameUpToKeyOrder (.obj [("b", .int 1), ("a", .str "x")])
      (.obj [("a", .str "x"), ("b", .int 1)]) := by
  have hv : (Json.obj [("b", .int 1), ("a", .str "x")]).KeysDistinct := by
    simp [Json.KeysDistinct, Json.FieldsDistinct]
  have hw : (Json.obj [("a", .str "x"), ("b", .int 1)]).KeysDistinct := by
    simp [Json.KeysDistinct, Json.FieldsDistinct]
  have htext : canonicalJson (.obj [("b", .int 1), ("a", .str "x")]) =
      .ok "\x7b\"a\":\"x\",\"b\":1\x7d" := by decide
  have htext' : canonicalJson (.obj [("a", .str "x"), ("b", .int 1)]) =
      .ok "\x7b\"a\":\"x\",\"b\":1\x7d" := by decide
  exact (canonical_json_injective_cross_language.1 ⟨_, hv⟩ ⟨_, hw⟩ _ _ htext htext').mp rfl

end CopilotRuntime.CanonicalJson
