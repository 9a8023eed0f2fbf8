import Mathlib.Data.List.Basic

/-!
# Texts as UTF-16

A character is one code unit or a pair of surrogates. A sequence of code units
that pairs its surrogates is the encoding of exactly one text.
-/

namespace CopilotRuntime.Foundation

/-- A 16-bit code unit. -/
abbrev CodeUnit : Type := Fin 0x10000

namespace Utf16

def isHigh (u : CodeUnit) : Bool := 0xd800 ≤ u.val && u.val ≤ 0xdbff

def isLow (u : CodeUnit) : Bool := 0xdc00 ≤ u.val && u.val ≤ 0xdfff

/-- The code point a pair of surrogates stands for. -/
def pairValue (high low : CodeUnit) : Nat :=
  (high.val - 0xd800) * 0x400 + (low.val - 0xdc00) + 0x10000

/-- The code points of code units; a surrogate without its other half is one of its own. -/
def codePoints : List CodeUnit → List Nat
  | [] => []
  | [u] => [u.val]
  | u :: v :: rest =>
      if isHigh u && isLow v then pairValue u v :: codePoints rest
      else u.val :: codePoints (v :: rest)

/-- Every surrogate is half of a pair. -/
def isWellFormed : List CodeUnit → Bool
  | [] => true
  | [u] => !isHigh u && !isLow u
  | u :: v :: rest =>
      if isHigh u then isLow v && isWellFormed rest
      else !isLow u && isWellFormed (v :: rest)

/-! ### Characters -/

theorem toNat_lt (c : Char) : c.toNat < 0x110000 := by
  have hvalid := c.valid
  have hval : c.toNat = c.val.toNat := rfl
  obtain hlow | ⟨-, hhigh⟩ := hvalid
  · omega
  · omega

/-- A character is no surrogate. -/
theorem not_surrogate (c : Char) : ¬(0xd800 ≤ c.toNat ∧ c.toNat ≤ 0xdfff) := by
  have hvalid := c.valid
  have hval : c.toNat = c.val.toNat := rfl
  obtain hlow | ⟨hhigh, -⟩ := hvalid
  · omega
  · omega

theorem isHigh_iff {u : CodeUnit} : isHigh u = true ↔ 0xd800 ≤ u.val ∧ u.val ≤ 0xdbff := by
  simp [isHigh]

theorem isLow_iff {u : CodeUnit} : isLow u = true ↔ 0xdc00 ≤ u.val ∧ u.val ≤ 0xdfff := by
  simp [isLow]

def highHalf (c : Char) : CodeUnit :=
  ⟨(c.toNat - 0x10000) / 0x400 + 0xd800, by have := toNat_lt c; omega⟩

def lowHalf (c : Char) : CodeUnit := ⟨(c.toNat - 0x10000) % 0x400 + 0xdc00, by omega⟩

def encodeChar (c : Char) : List CodeUnit :=
  if h : c.toNat < 0x10000 then [⟨c.toNat, h⟩] else [highHalf c, lowHalf c]

/-- The code units of a text. -/
def encode (s : String) : List CodeUnit := s.toList.flatMap encodeChar

theorem isHigh_highHalf (c : Char) : isHigh (highHalf c) = true := by
  have hbound := toNat_lt c
  rw [isHigh_iff]
  simp only [highHalf]
  omega

theorem isLow_lowHalf (c : Char) : isLow (lowHalf c) = true := by
  rw [isLow_iff]
  simp only [lowHalf]
  omega

theorem pairValue_halves {c : Char} (h : ¬c.toNat < 0x10000) :
    pairValue (highHalf c) (lowHalf c) = c.toNat := by
  simp only [pairValue, highHalf, lowHalf]
  omega

section Plain
variable {u : CodeUnit}

/-- A code unit that is no high surrogate is a code point. -/
theorem codePoints_cons_of_not_high (h : isHigh u = false) (rest : List CodeUnit) :
    codePoints (u :: rest) = u.val :: codePoints rest := by
  cases rest with
  | nil => rfl
  | cons v rest =>
      rw [codePoints, h, Bool.false_and]
      exact if_neg Bool.false_ne_true

theorem isWellFormed_cons_of_not_high (h : isHigh u = false) (rest : List CodeUnit) :
    isWellFormed (u :: rest) = (!isLow u && isWellFormed rest) := by
  cases rest with
  | nil =>
      change (!isHigh u && !isLow u) = (!isLow u && true)
      rw [h, Bool.not_false, Bool.true_and, Bool.and_true]
  | cons v rest =>
      rw [isWellFormed, h]
      exact if_neg Bool.false_ne_true

end Plain

section Encoding
variable (c : Char) (rest : List CodeUnit)

theorem plain_of_small {c : Char} (h : c.toNat < 0x10000) :
    isHigh ⟨c.toNat, h⟩ = false ∧ isLow ⟨c.toNat, h⟩ = false := by
  have hscalar := not_surrogate c
  constructor
  · rw [Bool.eq_false_iff, ne_eq, isHigh_iff]
    dsimp only
    omega
  · rw [Bool.eq_false_iff, ne_eq, isLow_iff]
    dsimp only
    omega

/-- An encoded character is read back as its code point. -/
theorem codePoints_encodeChar :
    codePoints (encodeChar c ++ rest) = c.toNat :: codePoints rest := by
  rw [encodeChar]
  by_cases h : c.toNat < 0x10000
  · rw [dif_pos h, List.singleton_append, codePoints_cons_of_not_high (plain_of_small h).1]
  · rw [dif_neg h, List.cons_append, List.singleton_append, codePoints, isHigh_highHalf,
      isLow_lowHalf, pairValue_halves h]
    rfl

theorem isWellFormed_encodeChar :
    isWellFormed (encodeChar c ++ rest) = isWellFormed rest := by
  rw [encodeChar]
  by_cases h : c.toNat < 0x10000
  · obtain ⟨hhigh, hlow⟩ := plain_of_small h
    rw [dif_pos h, List.singleton_append, isWellFormed_cons_of_not_high hhigh, hlow, Bool.not_false,
      Bool.true_and]
  · rw [dif_neg h, List.cons_append, List.singleton_append, isWellFormed, isHigh_highHalf,
      isLow_lowHalf, if_pos rfl, Bool.true_and]

end Encoding

/-! ### Texts -/

@[simp] theorem encode_append (s t : String) : encode (s ++ t) = encode s ++ encode t := by
  rw [encode, String.toList_append, List.flatMap_append]
  rfl

theorem encode_ofList (chars : List Char) :
    encode (String.ofList chars) = chars.flatMap encodeChar := by
  rw [encode, String.toList_ofList]

/-- The code points of an encoded text are its characters'. -/
theorem codePoints_encode (s : String) : codePoints (encode s) = s.toList.map Char.toNat := by
  rw [encode]
  induction s.toList with
  | nil => rfl
  | cons c rest ih => rw [List.flatMap_cons, codePoints_encodeChar, ih, List.map_cons]

theorem isWellFormed_encode (s : String) : isWellFormed (encode s) = true := by
  rw [encode]
  induction s.toList with
  | nil => rfl
  | cons c rest ih => rw [List.flatMap_cons, isWellFormed_encodeChar, ih]

theorem exists_char {n : Nat} (h : n.isValidChar) : ∃ c : Char, c.toNat = n :=
  ⟨Char.ofNatAux n h, rfl⟩

/-- A code unit that is no surrogate encodes a character. -/
theorem exists_encodeChar_single {u : CodeUnit} (hhigh : isHigh u = false)
    (hlow : isLow u = false) : ∃ c, encodeChar c = [u] := by
  have hbound := u.isLt
  have hvalid : u.val.isValidChar := by
    rw [Bool.eq_false_iff, ne_eq, isHigh_iff] at hhigh
    rw [Bool.eq_false_iff, ne_eq, isLow_iff] at hlow
    rw [Nat.isValidChar]
    omega
  obtain ⟨c, hc⟩ := exists_char hvalid
  refine ⟨c, ?_⟩
  rw [encodeChar, dif_pos (by omega)]
  exact congrArg (fun unit => [unit]) (Fin.ext hc)

/-- A pair of surrogates encodes a character. -/
theorem exists_encodeChar_pair {u v : CodeUnit} (hhigh : isHigh u = true)
    (hlow : isLow v = true) : ∃ c, encodeChar c = [u, v] := by
  rw [isHigh_iff] at hhigh
  rw [isLow_iff] at hlow
  have hvalid : (pairValue u v).isValidChar := by
    rw [Nat.isValidChar, pairValue]
    omega
  obtain ⟨c, hc⟩ := exists_char hvalid
  rw [pairValue] at hc
  have hfirst : highHalf c = u := by
    apply Fin.ext
    simp only [highHalf]
    omega
  have hsecond : lowHalf c = v := by
    apply Fin.ext
    simp only [lowHalf]
    omega
  refine ⟨c, ?_⟩
  rw [encodeChar, dif_neg (by omega), hfirst, hsecond]

/-- Well-formed code units encode a text. -/
theorem exists_encode {units : List CodeUnit} (h : isWellFormed units = true) :
    ∃ s, encode s = units := by
  suffices hchars : ∃ chars : List Char, chars.flatMap encodeChar = units by
    obtain ⟨chars, hchars⟩ := hchars
    exact ⟨String.ofList chars, (encode_ofList chars).trans hchars⟩
  fun_induction isWellFormed units with
  | case1 => exact ⟨[], rfl⟩
  | case2 u =>
      rw [Bool.and_eq_true, Bool.not_eq_true', Bool.not_eq_true'] at h
      obtain ⟨c, hc⟩ := exists_encodeChar_single h.1 h.2
      exact ⟨[c], by rw [List.flatMap_singleton, hc]⟩
  | case3 u v rest hhigh ih =>
      rw [Bool.and_eq_true] at h
      obtain ⟨c, hc⟩ := exists_encodeChar_pair hhigh h.1
      obtain ⟨chars, hchars⟩ := ih h.2
      exact ⟨c :: chars, by rw [List.flatMap_cons, hc, hchars]; rfl⟩
  | case4 u v rest hhigh ih =>
      rw [Bool.and_eq_true, Bool.not_eq_true'] at h
      obtain ⟨c, hc⟩ := exists_encodeChar_single (Bool.eq_false_iff.mpr hhigh) h.1
      obtain ⟨chars, hchars⟩ := ih h.2
      exact ⟨c :: chars, by rw [List.flatMap_cons, hc, hchars]; rfl⟩

end Utf16

end CopilotRuntime.Foundation
