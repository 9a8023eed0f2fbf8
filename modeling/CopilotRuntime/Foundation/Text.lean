import Mathlib.Data.List.Basic
import Mathlib.Data.List.DropRight

/-!
# Text primitives

Texts are sequences of Unicode scalar values. Each primitive reads the list of
characters, so it evaluates on literals.
-/

namespace CopilotRuntime.Foundation

namespace Text

/-- The characters that stripping removes from both ends of a text. -/
def isSpace (c : Char) : Bool :=
  (9 ≤ c.val && c.val ≤ 13) || (28 ≤ c.val && c.val ≤ 32) || c.val == 0x85 || c.val == 0xa0 ||
    c.val == 0x1680 || (0x2000 ≤ c.val && c.val ≤ 0x200a) || c.val == 0x2028 ||
    c.val == 0x2029 || c.val == 0x202f || c.val == 0x205f || c.val == 0x3000

/-- Remove leading characters and trailing characters that satisfy `p`. -/
def stripWhere (p : Char → Bool) (s : List Char) : List Char :=
  ((s.dropWhile p).reverse.dropWhile p).reverse

/-- Remove leading and trailing white space. -/
def strip (s : String) : String := String.ofList (stripWhere isSpace s.toList)

/-- A text is blank when stripping leaves nothing. -/
def isBlank (s : String) : Bool := s.toList.all isSpace

def startsWith (s pre : String) : Bool := pre.toList.isPrefixOf s.toList

/-- Some occurrence of `sub` lies inside `s`. -/
def contains (s sub : String) : Bool :=
  s.toList.tails.any fun rest => sub.toList.isPrefixOf rest

def hasChar (s : String) (c : Char) : Bool := s.toList.contains c

/-- Split at every occurrence of one character. -/
def splitChars (sep : Char) : List Char → List (List Char)
  | [] => [[]]
  | c :: rest =>
      match splitChars sep rest with
      | [] => [[c]]
      | part :: parts => if c = sep then [] :: part :: parts else (c :: part) :: parts

def split (s : String) (sep : Char) : List String :=
  (splitChars sep s.toList).map String.ofList

/-- Replace every occurrence of one character. -/
def replaceChar (s : String) (old new : Char) : String :=
  String.ofList (s.toList.map fun c => if c = old then new else c)

/-- Fold ASCII letters to lower case, the only letters the compared prefixes contain. -/
def lower (s : String) : String := String.ofList (s.toList.map Char.toLower)

def isLowerHex (c : Char) : Bool := ('0' ≤ c && c ≤ '9') || ('a' ≤ c && c ≤ 'f')

def isHex (c : Char) : Bool := isLowerHex c || ('A' ≤ c && c ≤ 'F')

def isDigit (c : Char) : Bool := '0' ≤ c && c ≤ '9'

def isAsciiAlnum (c : Char) : Bool :=
  isDigit c || ('a' ≤ c && c ≤ 'z') || ('A' ≤ c && c ≤ 'Z')

/-- One leading character of the class `head` and at most `limit` of the class `tail`. -/
def matchesToken (head tail : Char → Bool) (limit : Nat) (s : String) : Bool :=
  match s.toList with
  | [] => false
  | c :: rest => head c && rest.all tail && rest.length ≤ limit

/-- The part of a text after a fixed prefix. -/
def dropPrefix? (s pre : List Char) : Option (List Char) :=
  if pre.isPrefixOf s then some (s.drop pre.length) else none

/-- Read a decimal numeral without sign or separators. -/
def decimal? (s : List Char) : Option Nat :=
  if s.isEmpty || !s.all isDigit then none
  else some (s.foldl (fun n c => 10 * n + (c.toNat - '0'.toNat)) 0)

theorem splitChars_ne_nil (sep : Char) (s : List Char) : splitChars sep s ≠ [] := by
  cases s with
  | nil => simp [splitChars]
  | cons c rest =>
      unfold splitChars
      split
      · simp
      · split <;> simp

theorem splitChars_of_not_mem {sep : Char} {s : List Char} (h : sep ∉ s) :
    splitChars sep s = [s] := by
  induction s with
  | nil => rfl
  | cons c rest ih =>
      rw [List.mem_cons, not_or] at h
      simp [splitChars, ih h.2, Ne.symm h.1]

/-- The part before the first separator is split off. -/
theorem splitChars_append {sep : Char} {s : List Char} (h : sep ∉ s) (rest : List Char) :
    splitChars sep (s ++ sep :: rest) = s :: splitChars sep rest := by
  induction s with
  | nil =>
      cases hrest : splitChars sep rest with
      | nil => exact (splitChars_ne_nil sep rest hrest).elim
      | cons part parts => simp [splitChars, hrest]
  | cons c more ih =>
      rw [List.mem_cons, not_or] at h
      simp [splitChars, ih h.2, Ne.symm h.1]

/-- Lines that are joined are split again. -/
theorem split_intercalate {sep : Char} {lines : List String} (hlines : lines ≠ [])
    (h : ∀ line ∈ lines, sep ∉ line.toList) :
    split ((String.singleton sep).intercalate lines) sep = lines := by
  induction lines with
  | nil => exact absurd rfl hlines
  | cons line rest ih =>
      have hfirst : sep ∉ line.toList := h line List.mem_cons_self
      cases rest with
      | nil =>
          rw [String.intercalate_singleton, split, splitChars_of_not_mem hfirst, List.map_singleton,
            String.ofList_toList]
      | cons next more =>
          have hrest := ih (List.cons_ne_nil _ _) fun line hline => h line (List.mem_cons_of_mem _ hline)
          have hchars : ((String.singleton sep).intercalate (line :: next :: more)).toList =
              line.toList ++ sep :: ((String.singleton sep).intercalate (next :: more)).toList := by
            simp [String.intercalate_cons_cons]
          rw [split, hchars, splitChars_append hfirst, List.map_cons, String.ofList_toList, ← split,
            hrest]

/-- Nothing is stripped from a text that starts and ends outside the class. -/
theorem stripWhere_eq_self {p : Char → Bool} {first last : Char} {middle : List Char}
    (hfirst : p first = false) (hlast : p last = false) :
    stripWhere p (first :: (middle ++ [last])) = first :: (middle ++ [last]) := by
  simp [stripWhere, hfirst, hlast]

theorem stripWhere_idem (p : Char → Bool) (s : List Char) :
    stripWhere p (stripWhere p s) = stripWhere p s := by
  have hhead : (stripWhere p s).dropWhile p = stripWhere p s := by
    rw [List.dropWhile_eq_self_iff]
    intro hpos
    obtain ⟨rest, hrest⟩ : stripWhere p s <+: s.dropWhile p := List.rdropWhile_prefix p _
    have hlen : 0 < (s.dropWhile p).length := by
      rw [← hrest, List.length_append]
      omega
    have hget : (stripWhere p s)[0] = (s.dropWhile p)[0] := by
      simp only [← hrest]
      rw [List.getElem_append_left hpos]
    rw [hget]
    exact List.dropWhile_get_zero_not p s hlen
  calc stripWhere p (stripWhere p s)
      = ((stripWhere p s).reverse.dropWhile p).reverse := by
        rw [stripWhere, hhead]
    _ = stripWhere p s := by
        simp only [stripWhere, List.reverse_reverse, List.dropWhile_idempotent]

@[simp] theorem strip_strip (s : String) : strip (strip s) = strip s := by
  simp [strip, stripWhere_idem]

theorem head?_toDigits_ne_zero (n : Nat) (h : 0 < n) : (Nat.toDigits 10 n).head? ≠ some '0' := by
  induction n using Nat.strongRecOn with
  | ind n ih =>
      by_cases hsmall : n < 10
      · have hall : ∀ k < 10, 0 < k → (Nat.toDigits 10 k).head? ≠ some '0' := by decide
        exact hall n hsmall h
      · have hle : 10 ≤ n := by omega
        rw [Nat.toDigits_of_base_le (by decide) hle, List.head?_append]
        cases hhead : (Nat.toDigits 10 (n / 10)).head? with
        | none => exact (Nat.toDigits_ne_nil (List.head?_eq_none_iff.mp hhead)).elim
        | some c =>
            have hrest := ih (n / 10) (by omega) (by omega)
            rw [hhead] at hrest
            simpa using hrest

theorem isDigit_of_mem_toDigits {n : Nat} {c : Char} (h : c ∈ Nat.toDigits 10 n) :
    isDigit c = true := by
  have hdigit := Nat.isDigit_of_mem_toDigits (by decide) (by decide) h
  simpa [isDigit, Char.isDigit, Char.le_def] using hdigit

theorem not_isSpace_of_isDigit {c : Char} (h : isDigit c = true) : isSpace c = false := by
  simp only [isDigit, Bool.and_eq_true, decide_eq_true_eq, Char.le_def] at h
  have hlow : 48 ≤ c.val.toNat := UInt32.le_iff_toNat_le.mp h.1
  have hhigh : c.val.toNat ≤ 57 := UInt32.le_iff_toNat_le.mp h.2
  simp only [isSpace, Bool.or_eq_false_iff, Bool.and_eq_false_iff, decide_eq_false_iff_not,
    beq_eq_false_iff_ne, ne_eq, UInt32.le_iff_toNat_le, ← UInt32.toNat_inj, UInt32.reduceToNat]
  omega

theorem decimal?_toDigits (n : Nat) : decimal? (Nat.toDigits 10 n) = some n := by
  have hall : (Nat.toDigits 10 n).all isDigit = true :=
    List.all_eq_true.mpr fun c hc => isDigit_of_mem_toDigits hc
  have hvalue := Nat.ofDigitChars_ten_toDigits (n := n)
  rw [Nat.ofDigitChars_eq_foldl] at hvalue
  have hne : (Nat.toDigits 10 n).isEmpty = false := by
    simp
  rw [decimal?, hall, hne]
  exact congrArg some hvalue

end Text

end CopilotRuntime.Foundation
