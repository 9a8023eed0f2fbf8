import Mathlib.Data.List.Basic

/-!
# Base64 for URLs

Bytes are written with sixty-four characters, none of which is a separator of a token.

## Implementation notes

The padding is left out. Reading is total and makes sense of what was written only.
-/

namespace CopilotRuntime.Foundation.Base64Url

/-- The character of a number below sixty-four. -/
def sextet (n : Nat) : Char :=
  if n < 26 then Char.ofNat (65 + n)
  else if n < 52 then Char.ofNat (71 + n)
  else if n < 62 then Char.ofNat (n - 4)
  else if n = 62 then '-'
  else '_'

def sextetValue (c : Char) : Nat :=
  if c.isUpper then c.toNat - 65
  else if c.isLower then c.toNat - 71
  else if c.isDigit then c.toNat + 4
  else if c = '-' then 62
  else 63

/-- Three bytes are four characters, and the last one or two bytes are two or three. -/
def encode : List UInt8 → List Char
  | [] => []
  | [a] => [sextet (a.toNat / 4), sextet (a.toNat % 4 * 16)]
  | [a, b] =>
      [sextet (a.toNat / 4), sextet (a.toNat % 4 * 16 + b.toNat / 16),
        sextet (b.toNat % 16 * 4)]
  | a :: b :: c :: rest =>
      sextet (a.toNat / 4) :: sextet (a.toNat % 4 * 16 + b.toNat / 16) ::
        sextet (b.toNat % 16 * 4 + c.toNat / 64) :: sextet (c.toNat % 64) :: encode rest

/-- The byte of the last bits of one number and the first ones of the next. -/
def join (high low : Nat) (p q : Char) : UInt8 :=
  UInt8.ofNat (sextetValue p % (256 / high) * high + sextetValue q / low)

def decode : List Char → List UInt8
  | p :: q :: r :: s :: rest => join 4 16 p q :: join 16 4 q r :: join 64 1 r s :: decode rest
  | [p, q, r] => [join 4 16 p q, join 16 4 q r]
  | [p, q] => [join 4 16 p q]
  | _ => []

theorem sextetValue_sextet : ∀ n < 64, sextetValue (sextet n) = n := by decide

theorem sextet_plain : ∀ n < 64, sextet n ≠ '.' ∧ (sextet n).toNat < 128 := by decide

/-- What two numbers below sixty-four give is the byte that they were made of. -/
theorem join_sextet {high low m n : Nat} {a : UInt8} (hm : m < 64) (hn : n < 64)
    (h : m % (256 / high) * high + n / low = a.toNat) : join high low (sextet m) (sextet n) = a := by
  rw [join, sextetValue_sextet m hm, sextetValue_sextet n hn, h, UInt8.ofNat_toNat]

theorem decode_encode (bytes : List UInt8) : decode (encode bytes) = bytes := by
  induction bytes using encode.induct with
  | case1 => rfl
  | case2 a =>
      have ha := a.toNat_lt
      rw [encode, decode, join_sextet] <;> omega
  | case3 a b =>
      have ha := a.toNat_lt
      have hb := b.toNat_lt
      have hfirst : join 4 16 (sextet (a.toNat / 4)) (sextet (a.toNat % 4 * 16 + b.toNat / 16)) = a :=
        join_sextet (by omega) (by omega) (by omega)
      have hsecond : join 16 4 (sextet (a.toNat % 4 * 16 + b.toNat / 16))
          (sextet (b.toNat % 16 * 4)) = b :=
        join_sextet (by omega) (by omega) (by omega)
      rw [encode, decode, hfirst, hsecond]
  | case4 a b c rest ih =>
      have ha := a.toNat_lt
      have hb := b.toNat_lt
      have hc := c.toNat_lt
      have hfirst : join 4 16 (sextet (a.toNat / 4)) (sextet (a.toNat % 4 * 16 + b.toNat / 16)) = a :=
        join_sextet (by omega) (by omega) (by omega)
      have hsecond : join 16 4 (sextet (a.toNat % 4 * 16 + b.toNat / 16))
          (sextet (b.toNat % 16 * 4 + c.toNat / 64)) = b :=
        join_sextet (by omega) (by omega) (by omega)
      have hthird : join 64 1 (sextet (b.toNat % 16 * 4 + c.toNat / 64))
          (sextet (c.toNat % 64)) = c :=
        join_sextet (by omega) (by omega) (by omega)
      rw [encode, decode, hfirst, hsecond, hthird, ih]

/-- What is written needs no escape and holds no separator. -/
theorem plain_of_mem_encode {bytes : List UInt8} {c : Char} (h : c ∈ encode bytes) :
    c ≠ '.' ∧ c.toNat < 128 := by
  obtain ⟨n, hn, rfl⟩ : ∃ n < 64, c = sextet n := by
    induction bytes using encode.induct with
    | case1 => cases h
    | case2 a =>
        have ha := a.toNat_lt
        obtain rfl | rfl : c = _ ∨ c = _ := by simpa [encode] using h
        · exact ⟨_, by omega, rfl⟩
        · exact ⟨_, by omega, rfl⟩
    | case3 a b =>
        have ha := a.toNat_lt
        have hb := b.toNat_lt
        obtain rfl | rfl | rfl : c = _ ∨ c = _ ∨ c = _ := by simpa [encode] using h
        · exact ⟨_, by omega, rfl⟩
        · exact ⟨_, by omega, rfl⟩
        · exact ⟨_, by omega, rfl⟩
    | case4 a b d rest ih =>
        have ha := a.toNat_lt
        have hb := b.toNat_lt
        have hd := d.toNat_lt
        obtain rfl | rfl | rfl | rfl | hrest : c = _ ∨ c = _ ∨ c = _ ∨ c = _ ∨ c ∈ encode rest := by
          simpa [encode] using h
        · exact ⟨_, by omega, rfl⟩
        · exact ⟨_, by omega, rfl⟩
        · exact ⟨_, by omega, rfl⟩
        · exact ⟨_, by omega, rfl⟩
        · exact ih hrest
  exact sextet_plain n hn

end CopilotRuntime.Foundation.Base64Url
