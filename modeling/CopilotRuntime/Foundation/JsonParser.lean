import CopilotRuntime.Foundation.Dict
import CopilotRuntime.Foundation.Json
import CopilotRuntime.Foundation.Url

/-!
# Reading JSON texts

A parser of the JSON grammar for values without fractions and exponents. It reads
back every value that is written without blanks.

## Implementation notes

A name that comes twice in an object keeps its first place and its last value. A
surrogate escape without its other half stands for no character and is refused.
-/

namespace CopilotRuntime.Foundation.Json

/-! ### String literals -/

def isBlank (c : Char) : Bool := c = ' ' || c = '\t' || c = '\n' || c = '\r'

def skipBlanks (text : List Char) : List Char := text.dropWhile isBlank

/-- The number four hexadecimal digits stand for. -/
def hex4? (a b c d : Char) : Option Nat :=
  if [a, b, c, d].all Text.isHex then
    some (Url.hexValue a * 4096 + Url.hexValue b * 256 + Url.hexValue c * 16 + Url.hexValue d)
  else none

/-- The character that a backslash and a letter stand for. -/
def shortEscape? (c : Char) : Option Char :=
  if c = '"' ∨ c = '\\' ∨ c = '/' then some c
  else if c = 'n' then some '\n'
  else if c = 'r' then some '\r'
  else if c = 't' then some '\t'
  else if c = 'b' then some (Char.ofNat 8)
  else if c = 'f' then some (Char.ofNat 12)
  else none

/-- Read the lower half of a pair of surrogates. -/
def readLowHalf (high : Nat) : List Char → Option (Char × List Char)
  | '\\' :: 'u' :: a :: b :: c :: d :: rest => do
      let low ← hex4? a b c d
      if 0xdc00 ≤ low ∧ low ≤ 0xdfff then
        some (Char.ofNat ((high - 0xd800) * 0x400 + (low - 0xdc00) + 0x10000), rest)
      else none
  | _ => none

/-- Read what follows a backslash. -/
def readEscape : List Char → Option (Char × List Char)
  | [] => none
  | 'u' :: a :: b :: c :: d :: rest => do
      let code ← hex4? a b c d
      if 0xd800 ≤ code ∧ code ≤ 0xdbff then readLowHalf code rest
      else if 0xdc00 ≤ code ∧ code ≤ 0xdfff then none
      else some (Char.ofNat code, rest)
  | c :: rest => (shortEscape? c).map (·, rest)

/-- Read one character of a string literal. -/
def readChar : List Char → Option (Char × List Char)
  | [] => none
  | c :: rest =>
      if c = '\\' then readEscape rest else if c.toNat < 32 then none else some (c, rest)

/-- Read the characters of a string literal up to its end. -/
def readChars : Nat → List Char → Option (List Char × List Char)
  | 0, _ => none
  | _ + 1, '"' :: rest => some ([], rest)
  | n + 1, text => do
      let (c, rest) ← readChar text
      let (chars, rest) ← readChars n rest
      return (c :: chars, rest)

/-- Read a string literal after its opening mark. -/
def readString (text : List Char) : Option (String × List Char) :=
  (readChars (text.length + 1) text).map fun (chars, rest) => (String.ofList chars, rest)

/-! ### Numbers -/

/-- Read digits that make a number without a leading zero, a fraction or an exponent. -/
def readNat (text : List Char) : Option (Nat × List Char) :=
  let digits := text.takeWhile Text.isDigit
  let rest := text.dropWhile Text.isDigit
  if digits.head? = some '0' ∧ digits ≠ ['0'] then none
  else if rest.head?.any (fun c => c = '.' || c = 'e' || c = 'E') then none
  else (Text.decimal? digits).map (·, rest)

def readInt : List Char → Option (Int × List Char)
  | '-' :: text => (readNat text).map fun (n, rest) => (-(n : Int), rest)
  | text => (readNat text).map fun (n, rest) => ((n : Int), rest)

/-! ### Values -/

/-- Read a word that stands for a value. -/
def readWord (word : String) (value : Json) (text : List Char) : Option (Json × List Char) :=
  if word.toList.isPrefixOf text then some (value, text.drop word.length) else none

/-- Read the name of a field and the colon after it. -/
def readName (text : List Char) : Option (String × List Char) :=
  match skipBlanks text with
  | '"' :: rest => do
      let (name, rest) ← readString rest
      match skipBlanks rest with
      | ':' :: rest => return (name, rest)
      | _ => none
  | _ => none

mutual

def parseValue : Nat → List Char → Option (Json × List Char)
  | 0, _ => none
  | n + 1, text =>
      match skipBlanks text with
      | [] => none
      | c :: rest =>
          if c = '"' then (readString rest).map fun (s, rest) => (.str s, rest)
          else if c = '[' then
            match skipBlanks rest with
            | ']' :: rest => some (.arr [], rest)
            | rest => (parseItems n rest).map fun (items, rest) => (.arr items, rest)
          else if c = '\x7b' then
            match skipBlanks rest with
            | '\x7d' :: rest => some (.obj [], rest)
            | rest => (parseFields n rest).map fun (fields, rest) =>
                (.obj (fields.foldl (fun known field => setEntries known field.1 field.2) []), rest)
          else if c = 'n' then readWord "null" .null (c :: rest)
          else if c = 't' then readWord "true" (.bool true) (c :: rest)
          else if c = 'f' then readWord "false" (.bool false) (c :: rest)
          else (readInt (c :: rest)).map fun (n, rest) => (.int n, rest)

/-- Read the items of a list up to its end. -/
def parseItems : Nat → List Char → Option (List Json × List Char)
  | 0, _ => none
  | n + 1, text => do
      let (item, rest) ← parseValue n text
      match skipBlanks rest with
      | ',' :: rest =>
          let (items, rest) ← parseItems n rest
          return (item :: items, rest)
      | ']' :: rest => return ([item], rest)
      | _ => none

/-- Read the fields of an object up to its end. -/
def parseFields : Nat → List Char → Option (List (String × Json) × List Char)
  | 0, _ => none
  | n + 1, text => do
      let (name, rest) ← readName text
      let (value, rest) ← parseValue n rest
      match skipBlanks rest with
      | ',' :: rest =>
          let (fields, rest) ← parseFields n rest
          return ((name, value) :: fields, rest)
      | '\x7d' :: rest => return ([(name, value)], rest)
      | _ => none

end

/-- The value a text stands for. -/
def parse (text : String) : Option Json :=
  match parseValue (text.length + 1) text.toList with
  | some (value, rest) => if skipBlanks rest = [] then some value else none
  | none => none

/-! ### What is written is read back -/

variable {c : Char}

theorem skipBlanks_cons (h : isBlank c = false) (rest : List Char) :
    skipBlanks (c :: rest) = c :: rest := by
  rw [skipBlanks, List.dropWhile_cons_of_neg (by rw [h]; exact Bool.false_ne_true)]

theorem hexValue_hexDigit : ∀ n < 16, Url.hexValue (hexDigit n) = n := by decide

theorem isHex_hexDigit : ∀ n < 16, Text.isHex (hexDigit n) = true := by decide

variable {n : Nat}

theorem hex4?_control (h : n < 32) :
    hex4? '0' '0' (hexDigit (n / 16)) (hexDigit (n % 16)) = some n := by
  have hzero : Text.isHex '0' = true := by decide
  have hvalue : Url.hexValue '0' = 0 := by decide
  rw [hex4?, if_pos, hvalue, hexValue_hexDigit _ (by omega), hexValue_hexDigit _ (by omega)]
  · congr 1
    omega
  · simp only [List.all_cons, List.all_nil, Bool.and_true, Bool.and_eq_true]
    exact ⟨hzero, hzero, isHex_hexDigit _ (by omega), isHex_hexDigit _ (by omega)⟩

theorem readChar_backslash (rest : List Char) : readChar ('\\' :: rest) = readEscape rest := rfl

theorem readChar_plain (h : c ≠ '\\') (hlarge : ¬c.toNat < 32) (rest : List Char) :
    readChar (c :: rest) = some (c, rest) := by
  rw [readChar, if_neg h, if_neg hlarge]

/-- Every character is read back from its escape. -/
theorem readChar_escape (c : Char) (rest : List Char) :
    readChar (escape c ++ rest) = some (c, rest) := by
  have height : ∀ n, c.toNat = n → c = Char.ofNat n := by
    rintro n rfl
    exact (Char.ofNat_toNat c).symm
  unfold escape
  split
  · next h => rw [h]; rfl
  split
  · next h => rw [h]; rfl
  split
  · next h => rw [h]; rfl
  split
  · next h => rw [h]; rfl
  split
  · next h => rw [h]; rfl
  split
  · next h => rw [height 8 h]; rfl
  split
  · next h => rw [height 12 h]; rfl
  split
  · next h =>
      have hcode : ¬(0xd800 ≤ c.toNat ∧ c.toNat ≤ 0xdbff) := by omega
      have hcode' : ¬(0xdc00 ≤ c.toNat ∧ c.toNat ≤ 0xdfff) := by omega
      simp only [List.cons_append, List.nil_append, readChar_backslash, readEscape,
        hex4?_control h, Option.bind_eq_bind, Option.bind_some, if_neg hcode, if_neg hcode',
        Char.ofNat_toNat]
  · next hslash _ _ _ _ _ hlarge => exact readChar_plain hslash hlarge rest

/-- An escape is not empty and does not begin like the end of a literal. -/
theorem escape_eq_cons (c : Char) : ∃ first more, escape c = first :: more ∧ first ≠ '"' := by
  unfold escape
  split
  · exact ⟨_, _, rfl, by decide⟩
  split
  · exact ⟨_, _, rfl, by decide⟩
  split
  · exact ⟨_, _, rfl, by decide⟩
  split
  · exact ⟨_, _, rfl, by decide⟩
  split
  · exact ⟨_, _, rfl, by decide⟩
  split
  · exact ⟨_, _, rfl, by decide⟩
  split
  · exact ⟨_, _, rfl, by decide⟩
  split
  · exact ⟨_, _, rfl, by decide⟩
  · next hquote _ _ _ _ _ _ _ => exact ⟨_, _, rfl, hquote⟩

theorem readChars_escape (chars : List Char) (n : Nat) (h : chars.length < n)
    (rest : List Char) :
    readChars n (chars.flatMap escape ++ '"' :: rest) = some (chars, rest) := by
  induction chars generalizing n with
  | nil =>
      cases n with
      | zero => cases h
      | succ n => rfl
  | cons c more ih =>
      cases n with
      | zero => cases h
      | succ n =>
          have hread := readChar_escape c (more.flatMap escape ++ '"' :: rest)
          obtain ⟨first, tail, hescape, hfirst⟩ := escape_eq_cons c
          rw [List.flatMap_cons, List.append_assoc, hescape, List.cons_append]
          rw [hescape, List.cons_append] at hread
          rw [readChars]
          · rw [hread, Option.bind_eq_bind, Option.bind_some]
            dsimp only
            rw [ih n (Nat.lt_of_succ_lt_succ h)]
            rfl
          · intro _ heq
            exact hfirst (List.cons.inj heq).1

theorem length_le_flatMap_escape (chars : List Char) :
    chars.length ≤ (chars.flatMap escape).length := by
  induction chars with
  | nil => exact Nat.le_refl _
  | cons c rest ih =>
      obtain ⟨first, more, hescape, -⟩ := escape_eq_cons c
      rw [List.flatMap_cons, hescape, List.length_append, List.length_cons, List.length_cons]
      omega

/-- A string literal is read back. -/
theorem readString_literal (s : String) (rest : List Char) :
    readString (s.toList.flatMap escape ++ '"' :: rest) = some (s, rest) := by
  have hlength := length_le_flatMap_escape s.toList
  rw [readString, readChars_escape s.toList _ (by rw [List.length_append]; omega),
    Option.map_some]
  exact congrArg (fun t => some (t, rest)) String.ofList_toList

/-- What may follow a value. -/
def Closes (rest : List Char) : Prop :=
  ∀ c, rest.head? = some c → c = ',' ∨ c = ']' ∨ c = '\x7d'

theorem closes_nil : Closes [] := nofun

theorem closes_cons (h : c = ',' ∨ c = ']' ∨ c = '\x7d') (rest : List Char) :
    Closes (c :: rest) := by
  intro c' hc'
  obtain rfl := Option.some.inj hc'
  exact h

variable {rest : List Char}

theorem isDigit_of_closes (h : Closes rest) :
    ∀ c, rest.head? = some c → Text.isDigit c = false := by
  intro c hc
  obtain rfl | rfl | rfl := h c hc
  · decide
  · decide
  · decide

theorem span_digits {digits : List Char} (h : ∀ c ∈ digits, Text.isDigit c = true)
    (hrest : ∀ c, rest.head? = some c → Text.isDigit c = false) :
    (digits ++ rest).takeWhile Text.isDigit = digits ∧
      (digits ++ rest).dropWhile Text.isDigit = rest := by
  rw [List.takeWhile_append_of_pos h, List.dropWhile_append_of_pos h]
  cases rest with
  | nil => exact ⟨List.append_nil _, rfl⟩
  | cons c more =>
      have hc : ¬Text.isDigit c = true := by
        rw [hrest c rfl]
        exact Bool.false_ne_true
      rw [List.takeWhile_cons_of_neg hc, List.dropWhile_cons_of_neg hc, List.append_nil]
      exact ⟨rfl, rfl⟩

theorem readNat_toDigits (n : Nat) (hrest : Closes rest) :
    readNat (Nat.toDigits 10 n ++ rest) = some (n, rest) := by
  obtain ⟨htake, hdrop⟩ := span_digits
    (fun c hc => Text.isDigit_of_mem_toDigits (n := n) hc) (isDigit_of_closes hrest)
  rw [readNat, htake, hdrop, if_neg, if_neg, Text.decimal?_toDigits]
  · rfl
  · rw [Option.any_eq_true]
    rintro ⟨c, hc, hfloat⟩
    obtain rfl | rfl | rfl := hrest c hc
    · exact absurd hfloat (by decide)
    · exact absurd hfloat (by decide)
    · exact absurd hfloat (by decide)
  · rintro ⟨hhead, hmore⟩
    cases n with
    | zero => exact hmore rfl
    | succ n => exact Text.head?_toDigits_ne_zero (n + 1) (Nat.succ_pos n) hhead

theorem toList_toString_int (n : Int) :
    (toString n).toList = if 0 ≤ n then Nat.toDigits 10 n.toNat
      else '-' :: Nat.toDigits 10 (-n).toNat := by
  cases n with
  | ofNat n =>
      rw [if_pos (show 0 ≤ Int.ofNat n from Int.natCast_nonneg n)]
      change (Nat.repr n).toList = _
      rw [Nat.repr, String.toList_ofList]
      rfl
  | negSucc n =>
      rw [if_neg (by omega)]
      change ("-" ++ Nat.repr (n + 1)).toList = _
      rw [String.toList_append, Nat.repr, String.toList_ofList, String.toList_ofList]
      rfl

/-- A digit. -/
theorem exists_toDigits_cons (n : Nat) :
    ∃ c rest, Nat.toDigits 10 n = c :: rest ∧ Text.isDigit c = true := by
  cases hdigits : Nat.toDigits 10 n with
  | nil => exact (Nat.toDigits_ne_nil hdigits).elim
  | cons c rest =>
      exact ⟨c, rest, rfl, Text.isDigit_of_mem_toDigits (hdigits ▸ List.mem_cons_self)⟩

theorem readInt_toString (n : Int) (hrest : Closes rest) :
    readInt ((toString n).toList ++ rest) = some (n, rest) := by
  rw [toList_toString_int]
  by_cases hn : 0 ≤ n
  · obtain ⟨c, more, hdigits, hc⟩ := exists_toDigits_cons n.toNat
    have hread := readNat_toDigits n.toNat hrest
    rw [if_pos hn]
    rw [hdigits, List.cons_append] at hread ⊢
    rw [readInt, hread, Option.map_some]
    · exact congrArg (fun m => some (m, rest)) (Int.toNat_of_nonneg hn)
    · rintro _ heq
      rw [(List.cons.inj heq).1] at hc
      exact absurd hc (by decide)
  · rw [if_neg hn, List.cons_append, readInt, readNat_toDigits _ hrest, Option.map_some]
    exact congrArg (fun m => some (m, rest)) (show -((-n).toNat : Int) = n by omega)

/-! ### Values are read back -/

/-- Induction over the values inside a value. -/
theorem values {motive : Json → Prop} (null : motive null) (bool : ∀ b, motive (bool b))
    (int : ∀ n, motive (int n)) (str : ∀ s, motive (str s))
    (arr : ∀ items, (∀ item ∈ items, motive item) → motive (arr items))
    (obj : ∀ fields : List (String × Json), (∀ field ∈ fields, motive field.2) →
      motive (obj fields)) (v : Json) : motive v :=
  @Json.rec motive (fun items => ∀ item ∈ items, motive item)
    (fun fields => ∀ field ∈ fields, motive field.2) (fun field => motive field.2)
    null bool int str arr obj
    nofun (fun _ _ hitem hrest => List.forall_mem_cons.mpr ⟨hitem, hrest⟩)
    nofun (fun _ _ hfield hrest => List.forall_mem_cons.mpr ⟨hfield, hrest⟩)
    (fun _ _ hvalue => hvalue) v

mutual

/-- No object has a name twice. -/
def KeysDistinct : Json → Prop
  | arr items => ItemsDistinct items
  | obj fields => (fields.map Prod.fst).Nodup ∧ FieldsDistinct fields
  | _ => True

def ItemsDistinct : List Json → Prop
  | [] => True
  | item :: rest => KeysDistinct item ∧ ItemsDistinct rest

def FieldsDistinct : List (String × Json) → Prop
  | [] => True
  | (_, value) :: rest => KeysDistinct value ∧ FieldsDistinct rest

end

/-- Writing without blanks. -/
def compact : Separators := ⟨",", ":"⟩

theorem readWord_append (word : String) (value : Json) (rest : List Char) :
    readWord word value (word.toList ++ rest) = some (value, rest) := by
  rw [readWord, if_pos (List.isPrefixOf_iff_prefix.mpr (List.prefix_append _ _)),
    List.drop_left' (String.length_toList)]

theorem parseValue_cons (n : Nat) (h : isBlank c = false) (rest : List Char) :
    parseValue (n + 1) (c :: rest) =
      if c = '"' then (readString rest).map fun (s, rest) => (.str s, rest)
      else if c = '[' then
        match skipBlanks rest with
        | ']' :: rest => some (.arr [], rest)
        | rest => (parseItems n rest).map fun (items, rest) => (.arr items, rest)
      else if c = '\x7b' then
        match skipBlanks rest with
        | '\x7d' :: rest => some (.obj [], rest)
        | rest => (parseFields n rest).map fun (fields, rest) =>
            (.obj (fields.foldl (fun known field => setEntries known field.1 field.2) []), rest)
      else if c = 'n' then readWord "null" .null (c :: rest)
      else if c = 't' then readWord "true" (.bool true) (c :: rest)
      else if c = 'f' then readWord "false" (.bool false) (c :: rest)
      else (readInt (c :: rest)).map fun (n, rest) => (.int n, rest) := by
  rw [parseValue, skipBlanks_cons h]

theorem toList_quote (s : String) : (quote s).toList = '"' :: (s.toList.flatMap escape ++ ['"']) := by
  rw [quote, String.toList_ofList]
  rfl

theorem toList_render_arr (items : List Json) :
    (render compact (arr items)).toList = '[' :: ((renderItems compact items).toList ++ [']']) := by
  rw [render, String.toList_append, String.toList_append]
  rfl

theorem toList_render_obj (fields : List (String × Json)) :
    (render compact (obj fields)).toList =
      '\x7b' :: ((renderFields compact fields).toList ++ ['\x7d']) := by
  rw [render, String.toList_append, String.toList_append]
  rfl

/-- A written number begins with a digit or a sign. -/
theorem exists_toString_cons (n : Int) : ∃ c more, (toString n).toList = c :: more ∧
    (Text.isDigit c = true ∨ c = '-') := by
  rw [toList_toString_int]
  by_cases hn : 0 ≤ n
  · obtain ⟨c, more, hdigits, hc⟩ := exists_toDigits_cons n.toNat
    exact ⟨c, more, (if_pos hn).trans hdigits, .inl hc⟩
  · exact ⟨'-', _, if_neg hn, .inr rfl⟩

theorem ne_of_digit_or_sign {d : Char} (h : Text.isDigit c = true ∨ c = '-')
    (hd : Text.isDigit d = false) (hsign : d ≠ '-') : c ≠ d := by
  rintro rfl
  obtain hc | hc := h
  · rw [hd] at hc
    cases hc
  · exact hsign hc

theorem isBlank_of_digit_or_sign (h : Text.isDigit c = true ∨ c = '-') :
    isBlank c = false := by
  simp only [isBlank, Bool.or_eq_false_iff, decide_eq_false_iff_not]
  exact ⟨⟨⟨ne_of_digit_or_sign h (by decide) (by decide),
    ne_of_digit_or_sign h (by decide) (by decide)⟩,
    ne_of_digit_or_sign h (by decide) (by decide)⟩,
    ne_of_digit_or_sign h (by decide) (by decide)⟩

/-- What a written value begins with. -/
theorem exists_render_cons (v : Json) : ∃ c more, (render compact v).toList = c :: more ∧
    isBlank c = false ∧ c ≠ ']' := by
  cases v with
  | null => exact ⟨'n', _, rfl, by decide, by decide⟩
  | bool b =>
      cases b with
      | true => exact ⟨'t', _, rfl, by decide, by decide⟩
      | false => exact ⟨'f', _, rfl, by decide, by decide⟩
  | int n =>
      obtain ⟨c, more, htext, hc⟩ := exists_toString_cons n
      exact ⟨c, more, htext, isBlank_of_digit_or_sign hc,
        ne_of_digit_or_sign hc (by decide) (by decide)⟩
  | str s => exact ⟨'"', _, toList_quote s, by decide, by decide⟩
  | arr items => exact ⟨'[', _, toList_render_arr items, by decide, by decide⟩
  | obj fields => exact ⟨'\x7b', _, toList_render_obj fields, by decide, by decide⟩

theorem parseValue_int (k : Nat) (n : Int) (hrest : Closes rest) :
    parseValue (k + 1) ((toString n).toList ++ rest) = some (.int n, rest) := by
  have hread := readInt_toString n hrest
  obtain ⟨c, more, htext, hc⟩ := exists_toString_cons n
  rw [htext, List.cons_append] at hread ⊢
  rw [parseValue_cons k (isBlank_of_digit_or_sign hc),
    if_neg (ne_of_digit_or_sign hc (by decide) (by decide)),
    if_neg (ne_of_digit_or_sign hc (by decide) (by decide)),
    if_neg (ne_of_digit_or_sign hc (by decide) (by decide)),
    if_neg (ne_of_digit_or_sign hc (by decide) (by decide)),
    if_neg (ne_of_digit_or_sign hc (by decide) (by decide)),
    if_neg (ne_of_digit_or_sign hc (by decide) (by decide)), hread]
  rfl

theorem parseValue_str (k : Nat) (s : String) (rest : List Char) :
    parseValue (k + 1) ((quote s).toList ++ rest) = some (.str s, rest) := by
  rw [toList_quote, List.cons_append, List.append_assoc,
    parseValue_cons k (c := '"') (by decide), if_pos rfl, List.singleton_append,
    readString_literal]
  rfl

theorem renderItems_cons_cons (sep : Separators) (item next : Json) (more : List Json) :
    renderItems sep (item :: next :: more) =
      render sep item ++ sep.item ++ renderItems sep (next :: more) := by
  rw [renderItems]
  exact nofun

theorem renderFields_cons_cons (sep : Separators) (name : String) (value : Json)
    (next : String × Json) (more : List (String × Json)) :
    renderFields sep ((name, value) :: next :: more) =
      quote name ++ sep.key ++ render sep value ++ sep.item ++
        renderFields sep (next :: more) := by
  rw [renderFields]
  exact nofun

theorem toList_renderItems_cons (item next : Json) (more : List Json) :
    (renderItems compact (item :: next :: more)).toList =
      (render compact item).toList ++ ',' :: (renderItems compact (next :: more)).toList := by
  rw [renderItems_cons_cons, String.toList_append, String.toList_append, List.append_assoc]
  rfl

theorem exists_renderItems_cons (item : Json) (more : List Json) : ∃ c tail,
    (renderItems compact (item :: more)).toList = c :: tail ∧ isBlank c = false ∧ c ≠ ']' := by
  obtain ⟨c, tail, htext, hc⟩ := exists_render_cons item
  cases more with
  | nil => exact ⟨c, tail, htext, hc⟩
  | cons next more =>
      rw [toList_renderItems_cons, htext]
      exact ⟨c, _, rfl, hc⟩

theorem parseValue_arr (k : Nat) (items : List Json) (rest : List Char)
    (hitems : items ≠ [] → parseItems k ((renderItems compact items).toList ++ ']' :: rest) =
      some (items, rest)) :
    parseValue (k + 1) ((render compact (arr items)).toList ++ rest) = some (arr items, rest) := by
  rw [toList_render_arr, List.cons_append, List.append_assoc, List.singleton_append,
    parseValue_cons k (c := '[') (by decide), if_neg (by decide), if_pos rfl]
  cases items with
  | nil =>
      have hclose : skipBlanks ((renderItems compact []).toList ++ ']' :: rest) = ']' :: rest :=
        skipBlanks_cons (by decide) rest
      rw [hclose]
      rfl
  | cons item more =>
      have hread := hitems (List.cons_ne_nil item more)
      obtain ⟨c, tail, htext, hblank, hc⟩ := exists_renderItems_cons item more
      rw [htext, List.cons_append] at hread ⊢
      rw [skipBlanks_cons hblank]
      split
      · next heq => exact absurd (List.cons.inj heq).1 hc
      · rw [hread]
        rfl

theorem toList_renderFields_single (name : String) (value : Json) :
    (renderFields compact [(name, value)]).toList =
      '"' :: (name.toList.flatMap escape ++ '"' :: ':' :: (render compact value).toList) := by
  rw [renderFields, String.toList_append, String.toList_append, toList_quote]
  simp [compact]

theorem toList_renderFields_cons (name : String) (value : Json) (next : String × Json)
    (more : List (String × Json)) :
    (renderFields compact ((name, value) :: next :: more)).toList =
      '"' :: (name.toList.flatMap escape ++ '"' :: ':' :: ((render compact value).toList ++
        ',' :: (renderFields compact (next :: more)).toList)) := by
  rw [renderFields_cons_cons, String.toList_append, String.toList_append, String.toList_append,
    String.toList_append, toList_quote]
  simp [compact]

/-- Fields with distinct names are known in their order when they are put together. -/
theorem foldl_setEntries (fields known : List (String × Json))
    (h : ((known ++ fields).map Prod.fst).Nodup) :
    fields.foldl (fun known field => setEntries known field.1 field.2) known =
      known ++ fields := by
  induction fields generalizing known with
  | nil => exact (List.append_nil known).symm
  | cons field rest ih =>
      have hnew : setEntries known field.1 field.2 = known ++ [field] := by
        refine Dict.setEntries_of_lookup_none field.2 ?_
        rw [List.map_append, List.nodup_append] at h
        cases hfound : lookupEntries known field.1 with
        | none => rfl
        | some value =>
            have hmem : field.1 ∈ known.map Prod.fst :=
              List.mem_map.mpr ⟨_, (lookupEntries_eq_some_iff h.1).mp hfound, rfl⟩
            exact absurd rfl (h.2.2 field.1 hmem field.1 List.mem_cons_self)
      rw [List.foldl_cons, hnew, ih (known ++ [field])]
      · rw [List.append_assoc]
        rfl
      · rw [List.append_assoc]
        exact h

variable {fields : List (String × Json)}

theorem parseValue_obj (k : Nat) (hnodup : (fields.map Prod.fst).Nodup) (rest : List Char)
    (hfields : fields ≠ [] → parseFields k ((renderFields compact fields).toList ++ '\x7d' :: rest) =
      some (fields, rest)) :
    parseValue (k + 1) ((render compact (obj fields)).toList ++ rest) =
      some (obj fields, rest) := by
  rw [toList_render_obj, List.cons_append, List.append_assoc, List.singleton_append,
    parseValue_cons k (c := '\x7b') (by decide), if_neg (by decide), if_neg (by decide), if_pos rfl]
  cases fields with
  | nil =>
      have hclose : skipBlanks ((renderFields compact []).toList ++ '\x7d' :: rest) =
          '\x7d' :: rest := skipBlanks_cons (by decide) rest
      rw [hclose]
      rfl
  | cons field more =>
      have hread := hfields (List.cons_ne_nil field more)
      obtain ⟨tail, htext⟩ : ∃ tail, (renderFields compact (field :: more)).toList = '"' :: tail := by
        cases more with
        | nil => exact ⟨_, toList_renderFields_single field.1 field.2⟩
        | cons next more => exact ⟨_, toList_renderFields_cons field.1 field.2 next more⟩
      rw [htext, List.cons_append] at hread ⊢
      rw [skipBlanks_cons (by decide)]
      split
      · next heq => exact absurd (List.cons.inj heq).1 (by decide)
      · rw [hread, Option.map_some]
        dsimp only
        rw [foldl_setEntries _ [] hnodup]
        rfl

/-- A value is read back from its text, whatever closes it. -/
def ReadBack (v : Json) : Prop :=
  ∀ n, (render compact v).toList.length ≤ n → ∀ rest, Closes rest →
    parseValue n ((render compact v).toList ++ rest) = some (v, rest)

theorem parseItems_last {item : Json} {text : List Char}
    (h : parseValue n text = some (item, ']' :: rest) ) :
    parseItems (n + 1) text = some ([item], rest) := by
  have hclose : skipBlanks (']' :: rest) = ']' :: rest := skipBlanks_cons (by decide) rest
  rw [parseItems, h, Option.bind_eq_bind, Option.bind_some]
  dsimp only
  rw [hclose]
  rfl

variable {items : List Json}

theorem parseItems_more {item : Json} {text rest' : List Char}
    (h : parseValue n text = some (item, ',' :: rest))
    (hmore : parseItems n rest = some (items, rest')) :
    parseItems (n + 1) text = some (item :: items, rest') := by
  have hcomma : skipBlanks (',' :: rest) = ',' :: rest := skipBlanks_cons (by decide) rest
  rw [parseItems, h, Option.bind_eq_bind, Option.bind_some]
  dsimp only
  rw [hcomma]
  change (parseItems n rest >>= fun read => pure (item :: read.1, read.2)) = _
  rw [hmore]
  rfl

theorem parseItems_render (hitems : items ≠ []) (hread : ∀ item ∈ items, ReadBack item) (n : Nat)
    (hn : (renderItems compact items).toList.length + 1 ≤ n) (rest : List Char) :
    parseItems n ((renderItems compact items).toList ++ ']' :: rest) = some (items, rest) := by
  induction items generalizing n with
  | nil => exact absurd rfl hitems
  | cons item more ih =>
      obtain ⟨k, rfl⟩ : ∃ k, n = k + 1 := ⟨n - 1, by omega⟩
      have hitem := hread item List.mem_cons_self
      cases more with
      | nil =>
          exact parseItems_last (hitem k (Nat.le_of_succ_le_succ hn) (']' :: rest)
            (closes_cons (.inr (.inl rfl)) rest))
      | cons next more =>
          rw [toList_renderItems_cons, List.length_append, List.length_cons] at hn
          have hmore := ih (List.cons_ne_nil next more)
            (fun item hmem => hread item (List.mem_cons_of_mem _ hmem)) k (by omega)
          rw [toList_renderItems_cons, List.append_assoc, List.cons_append]
          exact parseItems_more (hitem k (by omega) _ (closes_cons (.inl rfl) _)) hmore

theorem readName_literal (name : String) (rest : List Char) :
    readName ('"' :: (name.toList.flatMap escape ++ '"' :: ':' :: rest)) = some (name, rest) := by
  have hcolon : skipBlanks (':' :: rest) = ':' :: rest := skipBlanks_cons (by decide) rest
  rw [readName, skipBlanks_cons (by decide)]
  change (readString _ >>= _) = _
  rw [readString_literal, Option.bind_eq_bind, Option.bind_some]
  dsimp only
  rw [hcolon]
  rfl

section Fields
variable {n : Nat} {name : String} {value : Json} {text rest rest' : List Char}

theorem parseFields_last (h : parseValue n text = some (value, '\x7d' :: rest)) :
    parseFields (n + 1) ('"' :: (name.toList.flatMap escape ++ '"' :: ':' :: text)) =
      some ([(name, value)], rest) := by
  have hclose : skipBlanks ('\x7d' :: rest) = '\x7d' :: rest := skipBlanks_cons (by decide) rest
  rw [parseFields, readName_literal, Option.bind_eq_bind, Option.bind_some]
  dsimp only
  rw [h, Option.bind_eq_bind, Option.bind_some]
  dsimp only
  rw [hclose]
  rfl

theorem parseFields_more {fields : List (String × Json)}
    (h : parseValue n text = some (value, ',' :: rest))
    (hmore : parseFields n rest = some (fields, rest')) :
    parseFields (n + 1) ('"' :: (name.toList.flatMap escape ++ '"' :: ':' :: text)) =
      some ((name, value) :: fields, rest') := by
  have hcomma : skipBlanks (',' :: rest) = ',' :: rest := skipBlanks_cons (by decide) rest
  rw [parseFields, readName_literal, Option.bind_eq_bind, Option.bind_some]
  dsimp only
  rw [h, Option.bind_eq_bind, Option.bind_some]
  dsimp only
  rw [hcomma]
  change (parseFields n rest >>= fun read => pure ((name, value) :: read.1, read.2)) = _
  rw [hmore]
  rfl

end Fields

theorem parseFields_render (hfields : fields ≠ []) (hread : ∀ field ∈ fields, ReadBack field.2)
    (n : Nat) (hn : (renderFields compact fields).toList.length + 1 ≤ n) (rest : List Char) :
    parseFields n ((renderFields compact fields).toList ++ '\x7d' :: rest) =
      some (fields, rest) := by
  induction fields generalizing n with
  | nil => exact absurd rfl hfields
  | cons field more ih =>
      obtain ⟨name, value⟩ := field
      obtain ⟨k, rfl⟩ : ∃ k, n = k + 1 := ⟨n - 1, by omega⟩
      have hvalue : ReadBack value := hread (name, value) List.mem_cons_self
      cases more with
      | nil =>
          rw [toList_renderFields_single] at hn ⊢
          simp only [List.length_cons, List.length_append] at hn
          rw [List.cons_append, List.append_assoc, List.cons_append, List.cons_append]
          exact parseFields_last (hvalue k (by omega) _ (closes_cons (.inr (.inr rfl)) rest))
      | cons next more =>
          rw [toList_renderFields_cons] at hn ⊢
          simp only [List.length_cons, List.length_append] at hn
          have hmore := ih (List.cons_ne_nil next more)
            (fun field hmem => hread field (List.mem_cons_of_mem _ hmem)) k (by omega)
          rw [List.cons_append, List.append_assoc, List.cons_append, List.cons_append,
            List.append_assoc, List.cons_append]
          exact parseFields_more (hvalue k (by omega) _ (closes_cons (.inl rfl) _)) hmore

theorem itemsDistinct_iff :
    ItemsDistinct items ↔ ∀ item ∈ items, item.KeysDistinct := by
  induction items with
  | nil => exact iff_of_true trivial nofun
  | cons item rest ih => rw [ItemsDistinct, ih, List.forall_mem_cons]

theorem fieldsDistinct_iff :
    FieldsDistinct fields ↔ ∀ field ∈ fields, field.2.KeysDistinct := by
  induction fields with
  | nil => exact iff_of_true trivial nofun
  | cons field rest ih => rw [FieldsDistinct, ih, List.forall_mem_cons]

variable {v : Json}

/-- Some of the fuel goes into the value itself. -/
theorem readBack_of_succ (h : ∀ k, (render compact v).toList.length ≤ k + 1 → ∀ rest, Closes rest →
      parseValue (k + 1) ((render compact v).toList ++ rest) = some (v, rest)) : ReadBack v := by
  intro n hn rest hrest
  obtain ⟨c, more, htext, -⟩ := exists_render_cons v
  obtain ⟨k, rfl⟩ : ∃ k, n = k + 1 := by
    rw [htext, List.length_cons] at hn
    exact ⟨n - 1, by omega⟩
  exact h k hn rest hrest

/-- Every value without a name that comes twice is read back. -/
theorem readBack (h : v.KeysDistinct) : ReadBack v := by
  induction v using Json.values with
  | null => exact readBack_of_succ fun k _ rest _ => readWord_append "null" null rest
  | bool b =>
      cases b with
      | true => exact readBack_of_succ fun k _ rest _ => readWord_append "true" (bool true) rest
      | false => exact readBack_of_succ fun k _ rest _ => readWord_append "false" (bool false) rest
  | int m => exact readBack_of_succ fun k _ rest hrest => parseValue_int k m hrest
  | str s => exact readBack_of_succ fun k _ rest _ => parseValue_str k s rest
  | arr items ih =>
      refine readBack_of_succ fun k hk rest _ => parseValue_arr k items rest fun hitems => ?_
      rw [toList_render_arr, List.length_cons, List.length_append] at hk
      refine parseItems_render hitems (fun item hmem => ?_) k (Nat.le_of_succ_le_succ hk) rest
      exact ih item hmem (itemsDistinct_iff.mp h item hmem)
  | obj fields ih =>
      refine readBack_of_succ fun k hk rest _ => parseValue_obj k h.1 rest fun hfields => ?_
      rw [toList_render_obj, List.length_cons, List.length_append] at hk
      refine parseFields_render hfields (fun field hmem => ?_) k (Nat.le_of_succ_le_succ hk) rest
      exact ih field hmem (fieldsDistinct_iff.mp h.2 field hmem)

/-- The text of a value stands for the value. -/
theorem parse_render (h : v.KeysDistinct) : parse (render compact v) = some v := by
  have hread := readBack h ((render compact v).length + 1)
    (by rw [String.length_toList]; exact Nat.le_succ _) [] closes_nil
  rw [List.append_nil] at hread
  rw [parse, hread]
  rfl

end CopilotRuntime.Foundation.Json
