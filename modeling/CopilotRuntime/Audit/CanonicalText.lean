import CopilotRuntime.Audit.ChainSigner
import CopilotRuntime.Foundation.Url
import Mathlib.Data.List.Flatten
import Mathlib.Data.String.Basic

/-!
# What canonical texts determine

A string literal is read back character by character, so it determines its
string wherever it ends. Sorting fields looks at their names only. Two objects
that differ in one string field, and possibly in fields after it, have
different texts.
-/

namespace CopilotRuntime.Audit

open Foundation

/-! ### String literals -/

/-- The number four hexadecimal digits stand for. -/
def hex4Value (a b c d : Char) : Nat :=
  Url.hexValue a * 4096 + Url.hexValue b * 256 + Url.hexValue c * 16 + Url.hexValue d

/-- The control character a two-character escape stands for, or the escaped character itself. -/
def shortEscape (c : Char) : Nat :=
  if c = 'n' then 10 else if c = 'r' then 13 else if c = 't' then 9
  else if c = 'b' then 8 else if c = 'f' then 12 else c.toNat

/-- Read one character of a string literal. -/
def readChar : List Char → Option (Nat × List Char)
  | '\\' :: 'u' :: a :: b :: c :: d :: rest =>
      let n := hex4Value a b c d
      if 0xd800 ≤ n ∧ n < 0xdc00 then
        match rest with
        | '\\' :: 'u' :: e :: f :: g :: h :: more =>
            some (0x10000 + (n - 0xd800) * 0x400 + (hex4Value e f g h - 0xdc00), more)
        | _ => none
      else some (n, rest)
  | '\\' :: c :: rest => some (shortEscape c, rest)
  | c :: rest => some (c.toNat, rest)
  | [] => none

theorem hexValue_hexDigit : ∀ n < 16, Url.hexValue (Json.hexDigit n) = n := by decide

theorem hex4Value_hex4 {n : Nat} (h : n < 0x10000) :
    hex4Value (Json.hexDigit (n / 4096 % 16)) (Json.hexDigit (n / 256 % 16))
      (Json.hexDigit (n / 16 % 16)) (Json.hexDigit (n % 16)) = n := by
  unfold hex4Value
  rw [hexValue_hexDigit _ (by omega), hexValue_hexDigit _ (by omega), hexValue_hexDigit _ (by omega),
    hexValue_hexDigit _ (by omega)]
  omega

/-- A character is no surrogate. -/
theorem not_surrogate (c : Char) : ¬(0xd800 ≤ c.toNat ∧ c.toNat < 0xe000) := by
  have hvalid := c.valid
  have htoNat : c.toNat = c.val.toNat := rfl
  rcases hvalid with hlow | ⟨hhigh, _⟩ <;> omega

theorem toNat_lt_of_char (c : Char) : c.toNat < 0x110000 := by
  have hvalid := c.valid
  have htoNat : c.toNat = c.val.toNat := rfl
  rcases hvalid with hlow | ⟨_, hhigh⟩ <;> omega

theorem readChar_plain {c : Char} (h : c ≠ '\\') (rest : List Char) :
    readChar (c :: rest) = some (c.toNat, rest) := by
  unfold readChar
  split
  · next heq => exact (h (List.cons.inj heq).1).elim
  · next heq => exact (h (List.cons.inj heq).1).elim
  · next heq =>
      obtain ⟨rfl, rfl⟩ := List.cons.inj heq
      rfl
  · next heq => cases heq

theorem readChar_unicode {n : Nat} (h : n < 0x10000) (hplain : ¬(0xd800 ≤ n ∧ n < 0xdc00))
    (rest : List Char) : readChar ((['\\', 'u'] ++ hex4 n) ++ rest) = some (n, rest) := by
  simp only [hex4, List.cons_append, List.nil_append, readChar, hex4Value_hex4 h, if_neg hplain]

theorem readChar_pair {high low : Nat} (hhigh : high < 0x400) (hlow : low < 0x400)
    (rest : List Char) :
    readChar (((['\\', 'u'] ++ hex4 (0xd800 + high)) ++ ['\\', 'u'] ++ hex4 (0xdc00 + low)) ++
      rest) = some (0x10000 + high * 0x400 + low, rest) := by
  have hpair : 0xd800 ≤ 0xd800 + high ∧ 0xd800 + high < 0xdc00 := by omega
  simp only [hex4, List.cons_append, List.nil_append, readChar,
    hex4Value_hex4 (show 0xd800 + high < 0x10000 by omega),
    hex4Value_hex4 (show 0xdc00 + low < 0x10000 by omega), if_pos hpair, Nat.add_sub_cancel_left]

/-- Every character is read back from its escape. -/
theorem readChar_escape (c : Char) (rest : List Char) :
    readChar (escape c ++ rest) = some (c.toNat, rest) := by
  have hchar := not_surrogate c
  have hbound := toNat_lt_of_char c
  unfold escape
  split
  · next h => rw [h]; rfl
  split
  · next h => rw [h]; rfl
  split
  · next h => rw [h]; rfl
  split
  · next h => rw [h]; rfl
  split
  · next h => rw [h]; rfl
  split
  · next h => rw [h]; rfl
  split
  · next h => rw [h]; rfl
  split
  · next hslash _ _ _ _ _ _ => exact readChar_plain hslash rest
  split
  · next hsmall => exact readChar_unicode hsmall (by omega) rest
  · next hlarge =>
      rw [readChar_pair (by omega) (by omega)]
      have hcode : 0x10000 + (c.toNat - 0x10000) / 0x400 * 0x400 + (c.toNat - 0x10000) % 0x400 =
          c.toNat := by omega
      rw [hcode]

variable {x y : List Char}

theorem escape_append_inj {c d : Char} (h : escape c ++ x = escape d ++ y) :
    c = d ∧ x = y := by
  have hread := readChar_escape c x
  rw [h, readChar_escape] at hread
  obtain ⟨hcode, hrest⟩ := Prod.mk.inj (Option.some.inj hread)
  exact ⟨Char.toNat_inj.mp hcode.symm, hrest.symm⟩

/-- No escape starts with a quotation mark. -/
theorem escape_ne_quoteMark (c : Char) (x y : List Char) : escape c ++ x ≠ '"' :: y := by
  intro h
  have hread := readChar_escape c x
  rw [h, readChar_plain (by decide)] at hread
  have hc : c = '"' := Char.toNat_inj.mp (Prod.mk.inj (Option.some.inj hread)).1.symm
  subst hc
  cases h

theorem literal_inj {a b : List Char}
    (h : a.flatMap escape ++ '"' :: x = b.flatMap escape ++ '"' :: y) : a = b ∧ x = y := by
  induction a generalizing b with
  | nil =>
      cases b with
      | nil => exact ⟨rfl, (List.cons.inj h).2⟩
      | cons d more =>
          rw [List.flatMap_cons, List.append_assoc] at h
          exact (escape_ne_quoteMark d _ _ h.symm).elim
  | cons c rest ih =>
      rw [List.flatMap_cons, List.append_assoc] at h
      cases b with
      | nil => exact (escape_ne_quoteMark c _ _ h).elim
      | cons d more =>
          rw [List.flatMap_cons, List.append_assoc] at h
          obtain ⟨rfl, hrest⟩ := escape_append_inj h
          obtain ⟨rfl, hxy⟩ := ih hrest
          exact ⟨rfl, hxy⟩

/-- A string literal determines its string and where it ends. -/
theorem quote_append_inj {a b : String} (h : quote a ++ x = quote b ++ y) :
    a = b ∧ x = y := by
  have hopen : a.toList.flatMap escape ++ '"' :: x = b.toList.flatMap escape ++ '"' :: y := by
    have hrest : (a.toList.flatMap escape ++ ['"']) ++ x = (b.toList.flatMap escape ++ ['"']) ++ y :=
      (List.cons.inj h).2
    simpa only [List.append_assoc, List.singleton_append] using hrest
  obtain ⟨hstring, hxy⟩ := literal_inj hopen
  exact ⟨String.toList_inj.mp hstring, hxy⟩

/-! ### Sorted fields -/

section Sorting
variable {α β : Type}

/-- Names do not decrease. -/
def Sorted (fields : List (String × α)) : Prop := fields.Pairwise fun a b => a.1 ≤ b.1

theorem insertField_map (f : α → β) (field : String × α) (fields : List (String × α)) :
    (insertField field fields).map (Prod.map id f) =
      insertField (Prod.map id f field) (fields.map (Prod.map id f)) := by
  induction fields with
  | nil => rfl
  | cons other rest ih =>
      simp only [insertField, List.map_cons, Prod.map_fst, id_eq]
      split
      · rfl
      · rw [List.map_cons, ih]

variable {fields : List (String × α)}

theorem mem_insertField {field other : String × α} :
    other ∈ insertField field fields ↔ other = field ∨ other ∈ fields := by
  induction fields with
  | nil => simp [insertField]
  | cons head rest ih =>
      unfold insertField
      split
      · simp
      · simp only [List.mem_cons, ih]
        tauto

theorem sorted_insertField (h : Sorted fields) (field : String × α) :
    Sorted (insertField field fields) := by
  induction fields with
  | nil => exact List.pairwise_singleton _ _
  | cons head rest ih =>
      obtain ⟨hhead, hrest⟩ := List.pairwise_cons.mp h
      unfold insertField
      split
      · next hlt =>
          refine List.pairwise_cons.mpr ⟨?_, h⟩
          intro other hother
          rcases List.mem_cons.mp hother with rfl | hmem
          · exact le_of_lt hlt
          · exact le_trans (le_of_lt hlt) (hhead other hmem)
      · next hle =>
          refine List.pairwise_cons.mpr ⟨?_, ih hrest⟩
          intro other hother
          rcases mem_insertField.mp hother with rfl | hmem
          · exact not_lt.mp hle
          · exact hhead other hmem

/-- A field no larger than the others goes in front of them. -/
theorem insertField_of_lt {field : String × α} (h : ∀ other ∈ fields, field.1 < other.1) :
    insertField field fields = field :: fields := by
  cases fields with
  | nil => rfl
  | cons head rest => rw [insertField, if_pos (h head List.mem_cons_self)]

theorem insertField_filter (h : Sorted fields) (p : String → Bool) (field : String × α) :
    (insertField field fields).filter (fun f => p f.1) =
      if p field.1 then insertField field (fields.filter fun f => p f.1)
      else fields.filter fun f => p f.1 := by
  induction fields with
  | nil => cases hp : p field.1 <;> simp [insertField, hp]
  | cons head rest ih =>
      obtain ⟨hhead, hrest⟩ := List.pairwise_cons.mp h
      by_cases hlt : field.1 < head.1
      · have hbelow : ∀ other ∈ (head :: rest).filter (fun f => p f.1), field.1 < other.1 := by
          intro other hother
          rcases List.mem_cons.mp (List.mem_of_mem_filter hother) with rfl | hmem
          · exact hlt
          · exact lt_of_lt_of_le hlt (hhead other hmem)
        rw [insertField_of_lt hbelow, insertField, if_pos hlt, List.filter_cons]
      · rw [insertField, if_neg hlt, List.filter_cons, ih hrest, List.filter_cons]
        cases hp : p field.1 <;> cases hq : p head.1 <;> simp [insertField, hlt]

theorem perm_insertField (field : String × α) (fields : List (String × α)) :
    (insertField field fields).Perm (field :: fields) := by
  induction fields with
  | nil => exact List.Perm.refl _
  | cons head rest ih =>
      unfold insertField
      split
      · exact List.Perm.refl _
      · exact (ih.cons head).trans (List.Perm.swap field head rest)

/-- Sorting one field after another into sorted fields sorts them all. -/
theorem foldl_insertField (fields sorted : List (String × α)) (h : Sorted sorted) :
    Sorted (fields.foldl (fun sorted field => insertField field sorted) sorted) ∧
      (fields.foldl (fun sorted field => insertField field sorted) sorted).Perm
        (fields ++ sorted) := by
  induction fields generalizing sorted with
  | nil => exact ⟨h, List.Perm.refl _⟩
  | cons field rest ih =>
      obtain ⟨hsorted, hperm⟩ := ih (insertField field sorted) (sorted_insertField h field)
      refine ⟨hsorted, hperm.trans ?_⟩
      exact ((perm_insertField field sorted).append_left rest).trans List.perm_middle

theorem sorted_sortFields (fields : List (String × α)) : Sorted (sortFields fields) :=
  (foldl_insertField fields [] List.Pairwise.nil).1

theorem perm_sortFields (fields : List (String × α)) : (sortFields fields).Perm fields := by
  have hperm := (foldl_insertField fields [] List.Pairwise.nil).2
  rwa [List.append_nil] at hperm

theorem sortFields_map (f : α → β) (fields : List (String × α)) :
    sortFields (fields.map (Prod.map id f)) = (sortFields fields).map (Prod.map id f) := by
  have hfold (sorted : List (String × α)) :
      (fields.map (Prod.map id f)).foldl (fun sorted field => insertField field sorted)
        (sorted.map (Prod.map id f)) =
      (fields.foldl (fun sorted field => insertField field sorted) sorted).map (Prod.map id f) := by
    induction fields generalizing sorted with
    | nil => rfl
    | cons field rest ih =>
        rw [List.map_cons, List.foldl_cons, List.foldl_cons, ← insertField_map, ih]
  exact hfold []

theorem sortFields_filter (p : String → Bool) (fields : List (String × α)) :
    sortFields (fields.filter fun f => p f.1) = (sortFields fields).filter fun f => p f.1 := by
  have hfold (sorted : List (String × α)) (h : Sorted sorted) :
      (fields.filter fun f => p f.1).foldl (fun sorted field => insertField field sorted)
        (sorted.filter fun f => p f.1) =
      (fields.foldl (fun sorted field => insertField field sorted) sorted).filter fun f => p f.1 := by
    induction fields generalizing sorted with
    | nil => rfl
    | cons field rest ih =>
        rw [List.foldl_cons, ← ih _ (sorted_insertField h field), insertField_filter h]
        cases hp : p field.1 <;> simp [hp]
  exact hfold [] List.Pairwise.nil

end Sorting

/-! ### One field of an object -/

/-- Fields with their texts, the open ones with the given text. -/
def fillOpen (text : List Char) (fields : List (String × Option (List Char))) :
    List (String × List Char) :=
  fields.map (Prod.map id fun found => found.getD text)

/-- Fields with their texts, the one with a name left open. -/
def leaveOpen (name : String) (fields : List (String × List Char)) :
    List (String × Option (List Char)) :=
  setEntries (fields.map (Prod.map id some)) name none

theorem setEntries_eq_fillOpen (fields : List (String × List Char)) (name : String)
    (text : List Char) : setEntries fields name text = fillOpen text (leaveOpen name fields) := by
  unfold leaveOpen
  induction fields with
  | nil => rfl
  | cons field rest ih =>
      obtain ⟨key, value⟩ := field
      have hfilled : fillOpen text (rest.map (Prod.map id some)) = rest := by
        rw [fillOpen, List.map_map]
        exact (List.map_congr_left fun _ _ => rfl).trans (List.map_id rest)
      by_cases hk : key = name
      · simp only [setEntries, if_pos hk, List.map_cons, Prod.map, id_eq, fillOpen, Option.getD_none]
        exact congrArg ((name, text) :: ·) hfilled.symm
      · simp only [setEntries, if_neg hk, List.map_cons, Prod.map, id_eq, ih, fillOpen,
          Option.getD_some]

variable {fields : List (String × List Char)}

theorem leaveOpen_keys_nodup (h : (fields.map Prod.fst).Nodup) (name : String) :
    ((leaveOpen name fields).map Prod.fst).Nodup := by
  refine nodup_setEntries ?_ name none
  simpa [Function.comp_def] using h

variable {name : String}

/-- The only open field is the one with the name. -/
theorem mem_leaveOpen (h : (fields.map Prod.fst).Nodup) {field : String × Option (List Char)}
    (hmem : field ∈ leaveOpen name fields) :
    field = (name, none) ∨ field.1 ≠ name ∧ ∃ text, field.2 = some text := by
  have hlookup := (lookupEntries_eq_some_iff (leaveOpen_keys_nodup h name)).mpr hmem
  rw [leaveOpen, lookupEntries_setEntries] at hlookup
  split at hlookup
  · next hname =>
      left
      rw [hname, Option.some.inj hlookup]
  · next hname =>
      right
      have hopen : ((fields.map (Prod.map id some)).map Prod.fst).Nodup := by
        simpa [Function.comp_def] using h
      have hfield := (lookupEntries_eq_some_iff hopen).mp hlookup
      obtain ⟨⟨key, text⟩, _, heq⟩ := List.mem_map.mp hfield
      exact ⟨Ne.symm hname, text, (congrArg Prod.snd heq).symm⟩

theorem joined_append_cons (before : List (List Char)) (text : List Char)
    (after : List (List Char)) : joined (before ++ text :: after) =
      before.flatMap (· ++ [',']) ++ (text ++ after.flatMap (',' :: ·)) := by
  have hafter : ∀ first, joined (first :: after) = first ++ after.flatMap (',' :: ·) := by
    induction after with
    | nil => intro first; simp [joined]
    | cons next rest ih =>
        intro first
        change first ++ ',' :: joined (next :: rest) = _
        rw [ih next]
        simp
  induction before with
  | nil => exact hafter text
  | cons head rest ih =>
      have hhead : joined (head :: (rest ++ text :: after)) =
          head ++ ',' :: joined (rest ++ text :: after) := by
        cases rest <;> rfl
      rw [List.cons_append, hhead, ih]
      simp

/-- Dropping a field shortens the text of the fields that follow. -/
theorem forall_of_length_le {p : String → Bool}
    (h : (fields.flatMap fun f => ',' :: fieldText f).length ≤
      ((fields.filter fun f => p f.1).flatMap fun f => ',' :: fieldText f).length) :
    ∀ field ∈ fields, p field.1 = true := by
  have hle (rest : List (String × List Char)) :
      ((rest.filter fun f => p f.1).flatMap fun f => ',' :: fieldText f).length ≤
        (rest.flatMap fun f => ',' :: fieldText f).length :=
    (List.filter_sublist.flatMap fun f => ',' :: fieldText f).length_le
  induction fields with
  | nil => simp
  | cons field rest ih =>
      cases hp : p field.1 with
      | true =>
          rw [List.filter_cons, if_pos hp, List.flatMap_cons, List.flatMap_cons, List.length_append,
            List.length_append] at h
          exact List.forall_mem_cons.mpr ⟨hp, ih (by omega)⟩
      | false =>
          have hrest := hle rest
          rw [List.filter_cons, if_neg (by simp [hp]), List.flatMap_cons, List.length_append,
            List.length_cons] at h
          omega

theorem fillOpen_congr {fields : List (String × Option (List Char))}
    (h : ∀ field ∈ fields, ∃ text, field.2 = some text) (a b : List Char) :
    fillOpen a fields = fillOpen b fields := by
  refine List.map_congr_left fun field hfield => ?_
  obtain ⟨text, htext⟩ := h field hfield
  simp [Prod.map, htext]

/-- The text of sorted fields around an open one. -/
theorem objectText_of_split {fields : List (String × Option (List Char))}
    {before after : List (String × Option (List Char))}
    (hsplit : sortFields fields = before ++ (name, none) :: after) (text : List Char) :
    objectText (fillOpen text fields) =
      '{' :: (((fillOpen text before).map fieldText).flatMap (· ++ [',']) ++
        (fieldText (name, text) ++ ((fillOpen text after).map fieldText).flatMap (',' :: ·))) ++
        ['}'] := by
  unfold objectText
  rw [fillOpen, sortFields_map, hsplit, List.map_append, List.map_cons, List.map_append,
    List.map_cons, joined_append_cons]
  rfl

/-- Two objects that differ in one string, and in fields after it that one of them lacks, have the
same text only if they are the same. -/
theorem objectText_inj (hnodup : (fields.map Prod.fst).Nodup)
    {p : String → Bool} (hp : ∀ other, p other = false → name < other)
    {a b : String}
    (h : objectText (setEntries fields name (quote a)) =
      objectText ((setEntries fields name (quote b)).filter fun f => p f.1)) :
    a = b ∧ ∀ field ∈ fields, p field.1 = true := by
  have hpname : p name = true := by
    by_contra hfalse
    exact absurd (hp name (by simpa using hfalse)) (lt_irrefl name)
  -- Both objects are the same sorted list of fields with the named field left open.
  have hperm := perm_sortFields (leaveOpen name fields)
  have hsorted := sorted_sortFields (leaveOpen name fields)
  have hname : (name, none) ∈ sortFields (leaveOpen name fields) := by
    refine hperm.mem_iff.mpr ((lookupEntries_eq_some_iff (leaveOpen_keys_nodup hnodup name)).mp ?_)
    rw [leaveOpen, lookupEntries_setEntries, if_pos rfl]
  obtain ⟨before, after, hsplit⟩ := List.append_of_mem hname
  have hkeys : ((before ++ (name, none) :: after).map Prod.fst).Nodup := by
    rw [← hsplit]
    exact (hperm.map Prod.fst).nodup_iff.mpr (leaveOpen_keys_nodup hnodup name)
  rw [List.map_append, List.map_cons, List.nodup_append, List.nodup_cons] at hkeys
  have hclosed : ∀ field ∈ before ++ after, ∃ text, field.2 = some text := by
    intro field hfield
    have hmem : field ∈ leaveOpen name fields := by
      rw [← hperm.mem_iff, hsplit]
      rcases List.mem_append.mp hfield with hbefore | hafter
      · exact List.mem_append_left _ hbefore
      · exact List.mem_append_right _ (List.mem_cons_of_mem _ hafter)
    rcases mem_leaveOpen hnodup hmem with rfl | ⟨_, hsome⟩
    · rcases List.mem_append.mp hfield with hbefore | hafter
      · exact (hkeys.2.2 name (List.mem_map_of_mem hbefore) name List.mem_cons_self rfl).elim
      · exact (hkeys.2.1.1 (List.mem_map_of_mem hafter)).elim
    · exact hsome
  have hbefore : before.filter (fun f => p f.1) = before := by
    refine List.filter_eq_self.mpr fun field hfield => ?_
    have hle : field.1 ≤ name := by
      rw [hsplit] at hsorted
      exact (List.pairwise_append.mp hsorted).2.2 field hfield _ List.mem_cons_self
    by_contra hfalse
    exact absurd (hp field.1 (by simpa using hfalse)) (not_lt.mpr hle)
  have hfiltered : sortFields ((leaveOpen name fields).filter fun f => p f.1) =
      before ++ (name, none) :: after.filter fun f => p f.1 := by
    rw [sortFields_filter, hsplit, List.filter_append, hbefore, List.filter_cons]
    simp only [hpname, if_true]
  have hopened : (setEntries fields name (quote b)).filter (fun f => p f.1) =
      fillOpen (quote b) ((leaveOpen name fields).filter fun f => p f.1) := by
    rw [setEntries_eq_fillOpen, fillOpen, List.filter_map]
    rfl
  rw [hopened, setEntries_eq_fillOpen, objectText_of_split hsplit, objectText_of_split hfiltered,
    fillOpen_congr (fun f hf => hclosed f (List.mem_append_left _ hf)) (quote b) (quote a)] at h
  have hfield := List.append_cancel_left (List.append_cancel_right (List.cons.inj h).2)
  have hliteral : quote a ++ ((fillOpen (quote a) after).map fieldText).flatMap (',' :: ·) =
      quote b ++ ((fillOpen (quote b) (after.filter fun f => p f.1)).map fieldText).flatMap
        (',' :: ·) := by
    simp only [fieldText, List.append_assoc] at hfield
    exact (List.cons.inj (List.append_cancel_left hfield)).2
  obtain ⟨rfl, htail⟩ := quote_append_inj hliteral
  refine ⟨rfl, ?_⟩
  have hafter : ∀ field ∈ fillOpen (quote a) after, p field.1 = true := by
    refine forall_of_length_le ?_
    have hsame : (fillOpen (quote a) after).filter (fun f => p f.1) =
        fillOpen (quote a) (after.filter fun f => p f.1) := by
      rw [fillOpen, List.filter_map]
      rfl
    rw [hsame]
    rw [List.flatMap_map, List.flatMap_map] at htail
    exact (congrArg List.length htail).le
  intro field hfield
  by_cases hkey : field.1 = name
  · rw [hkey, hpname]
  have hmem : (field.1, some field.2) ∈ before ++ (name, none) :: after := by
    rw [← hsplit, hperm.mem_iff]
    refine (lookupEntries_eq_some_iff (leaveOpen_keys_nodup hnodup name)).mp ?_
    have hopen : ((fields.map (Prod.map id some)).map Prod.fst).Nodup := by
      simpa [Function.comp_def] using hnodup
    rw [leaveOpen, lookupEntries_setEntries, if_neg (Ne.symm hkey)]
    exact (lookupEntries_eq_some_iff hopen).mpr (List.mem_map_of_mem hfield)
  rcases List.mem_append.mp hmem with hin | hin
  · rw [← hbefore] at hin
    exact (List.mem_filter.mp hin).2
  · rcases List.mem_cons.mp hin with heq | hin
    · exact (hkey (congrArg Prod.fst heq)).elim
    · exact hafter _ (List.mem_map_of_mem hin)

end CopilotRuntime.Audit
