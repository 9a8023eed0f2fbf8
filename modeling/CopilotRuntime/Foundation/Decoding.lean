import CopilotRuntime.Foundation.Url

/-!
# What decoding and splitting keep

A character that takes part in no percent escape is still there after
decoding, and a text without any percent sign is decoded to itself. A URL of
plain characters is split at its delimiters only.
-/

namespace CopilotRuntime.Foundation

namespace Url

/-! ### Decoding -/

/-- A character outside every escape is kept as it is. -/
theorem inl_mem_percentBytes {c : Char} (hpercent : c ≠ '%') (hhex : Text.isHex c = false)
    {s : List Char} (h : c ∈ s) : Sum.inl c ∈ percentBytes s := by
  induction s using percentBytes.induct with
  | case1 a b rest hescape ih =>
      rw [percentBytes, if_pos hescape]
      simp only [Bool.and_eq_true] at hescape
      have hne : c ≠ a ∧ c ≠ b := by
        constructor
        · rintro rfl
          rw [hescape.1] at hhex
          cases hhex
        · rintro rfl
          rw [hescape.2] at hhex
          cases hhex
      simp only [List.mem_cons, hpercent, hne.1, hne.2, false_or] at h
      exact List.mem_cons_of_mem _ (ih h)
  | case2 a b rest hplain ih =>
      rw [percentBytes, if_neg hplain]
      rcases List.mem_cons.mp h with rfl | hrest
      · exact List.mem_cons_self
      · exact List.mem_cons_of_mem _ (ih hrest)
  | case3 head rest hshape ih =>
      rw [percentBytes.eq_2 head rest hshape]
      rcases List.mem_cons.mp h with rfl | hrest
      · exact List.mem_cons_self
      · exact List.mem_cons_of_mem _ (ih hrest)
  | case4 => cases h

/-- Decoding bytes keeps every character between them. -/
theorem mem_decodeUtf8 {c : Char} {items : List (Char ⊕ Nat)} (h : Sum.inl c ∈ items)
    (pending : Option Pending) : c ∈ decodeUtf8 pending items := by
  induction items generalizing pending with
  | nil => cases h
  | cons item rest ih =>
      rcases List.mem_cons.mp h with rfl | hrest
      · cases pending <;> simp [decodeUtf8, decodeFresh]
      · have hkept := ih hrest
        cases pending with
        | none => simp [decodeUtf8, hkept]
        | some p =>
            cases item with
            | inl other => simp [decodeUtf8, hkept]
            | inr b =>
                simp only [decodeUtf8]
                split
                · split <;> simp [hkept]
                · simp [hkept]

theorem mem_unquote {c : Char} (hpercent : c ≠ '%') (hhex : Text.isHex c = false) {s : String}
    (h : c ∈ s.toList) : c ∈ (unquote s).toList := by
  rw [unquote, String.toList_ofList]
  exact mem_decodeUtf8 (inl_mem_percentBytes hpercent hhex h) none

theorem mem_unquoteFully {c : Char} (hpercent : c ≠ '%') (hhex : Text.isHex c = false)
    {s : String} (h : c ∈ s.toList) : c ∈ (unquoteFully s).toList := by
  unfold unquoteFully
  generalize s.length = fuel
  induction fuel generalizing s with
  | zero => exact h
  | succ fuel ih =>
      rw [unquoteUpTo]
      split
      · exact h
      · exact ih (mem_unquote hpercent hhex h)

theorem percentBytes_of_no_percent {s : List Char} (h : '%' ∉ s) :
    percentBytes s = s.map Sum.inl := by
  induction s using percentBytes.induct with
  | case1 a b rest hescape ih => simp at h
  | case2 a b rest hplain ih => simp at h
  | case3 head rest hshape ih =>
      rw [percentBytes.eq_2 head rest hshape, ih (fun hmem => h (List.mem_cons_of_mem _ hmem))]
      rfl
  | case4 => rfl

theorem decodeUtf8_map_inl (s : List Char) : decodeUtf8 none (s.map Sum.inl) = s := by
  induction s with
  | nil => rfl
  | cons c rest ih => simp [decodeUtf8, decodeFresh, ih]

/-- Without a percent sign there is nothing to decode. -/
theorem unquoteFully_of_no_percent {s : String} (h : '%' ∉ s.toList) : unquoteFully s = s := by
  have hsame : unquote s = s := by
    rw [unquote, percentBytes_of_no_percent h, decodeUtf8_map_inl, String.ofList_toList]
  unfold unquoteFully
  cases s.length with
  | zero => rfl
  | succ fuel => simp [unquoteUpTo, hsame]

/-! ### Splitting -/

theorem cut_append_cons {p : Char → Bool} {a : List Char} {c : Char} (ha : ∀ x ∈ a, p x = false)
    (hc : p c = true) (b : List Char) : cut p (a ++ c :: b) = (a, c :: b) := by
  induction a with
  | nil => simp [cut, hc]
  | cons x rest ih =>
      have hx := ha x List.mem_cons_self
      have hrest := ih fun y hy => ha y (List.mem_cons_of_mem _ hy)
      simp only [cut, Prod.mk.injEq] at hrest
      simp [cut, hx, hrest.1, hrest.2]

theorem cut_of_forall {p : Char → Bool} {a : List Char} (ha : ∀ x ∈ a, p x = false) :
    cut p a = (a, []) := by
  induction a with
  | nil => rfl
  | cons x rest ih =>
      have hx := ha x List.mem_cons_self
      have hrest := ih fun y hy => ha y (List.mem_cons_of_mem _ hy)
      simp only [cut, Prod.mk.injEq] at hrest
      simp [cut, hx, hrest.1, hrest.2]

/-- A visible character that means nothing to a URL, a slash excepted. -/
def isPlain (c : Char) : Bool :=
  32 < c.val && !expandsToDelimiter c && c != '?' && c != '#' && c != '[' && c != ']'

/-- A scheme, an authority and a path of plain characters are what they were put together from. -/
theorem urlsplit_plain {scheme netloc path : List Char} {first : Char} {tail : List Char}
    (hscheme : scheme = first :: tail) (halpha : first.isAlpha = true)
    (hchars : ∀ c ∈ scheme, isSchemeChar c = true) (hnetloc : ∀ c ∈ netloc, c ≠ '/')
    (hplain : ∀ c ∈ scheme ++ netloc ++ path, isPlain c = true) :
    urlsplit (String.ofList (scheme ++ ':' :: '/' :: '/' :: (netloc ++ '/' :: path))) =
      some ⟨String.ofList (scheme.map Char.toLower), String.ofList netloc,
        String.ofList ('/' :: path), "", ""⟩ := by
  have hof : ∀ c ∈ scheme ++ netloc ++ path, 32 < c.val ∧ expandsToDelimiter c = false ∧
      c ≠ '?' ∧ c ≠ '#' ∧ c ≠ '[' ∧ c ≠ ']' := by
    intro c hc
    have hp := hplain c hc
    simp only [isPlain, Bool.and_eq_true, decide_eq_true_eq, Bool.not_eq_true', bne_iff_ne] at hp
    tauto
  generalize hall : scheme ++ ':' :: '/' :: '/' :: (netloc ++ '/' :: path) = whole
  have hvisible : ∀ c ∈ whole, 32 < c.val := by
    intro c hc
    rw [← hall] at hc
    simp only [List.mem_append, List.mem_cons] at hc
    rcases hc with hc | rfl | rfl | rfl | hc | rfl | hc
    · exact (hof c (by simp [hc])).1
    · decide
    · decide
    · decide
    · exact (hof c (by simp [hc])).1
    · decide
    · exact (hof c (by simp [hc])).1
  have hcleaned : (whole.dropWhile isControlOrSpace).filter (fun c =>
      c != '\t' && c != '\r' && c != '\n') = whole := by
    have hdrop : whole.dropWhile isControlOrSpace = whole := by
      rw [← hall, hscheme, List.cons_append, List.dropWhile_cons_of_neg]
      have hfirst := hvisible first (by rw [← hall, hscheme]; simp)
      simpa [isControlOrSpace] using hfirst
    rw [hdrop, List.filter_eq_self]
    intro c hc
    have hbig := hvisible c hc
    simp only [Bool.and_eq_true, bne_iff_ne]
    refine ⟨⟨?_, ?_⟩, ?_⟩ <;> rintro rfl <;> revert hbig <;> decide
  have hcolon : cut (· == ':') whole = (scheme, ':' :: '/' :: '/' :: (netloc ++ '/' :: path)) := by
    rw [← hall]
    refine cut_append_cons (fun c hc => ?_) rfl _
    have hchar := hchars c hc
    rw [beq_eq_false_iff_ne]
    rintro rfl
    revert hchar
    decide
  have hhas : (!(':' :: '/' :: '/' :: (netloc ++ '/' :: path)).isEmpty && !scheme.isEmpty &&
      (scheme.head?.getD ' ').isAlpha && scheme.all isSchemeChar) = true := by
    have hallChars : scheme.all isSchemeChar = true := List.all_eq_true.mpr hchars
    rw [hallChars]
    subst hscheme
    simp [halpha]
  have hauthority : cut (fun c => c == '/' || c == '?' || c == '#') (netloc ++ '/' :: path) =
      (netloc, '/' :: path) := by
    refine cut_append_cons (fun c hc => ?_) rfl _
    obtain ⟨-, -, hquery, hfragment, -, -⟩ := hof c (by simp [hc])
    simp [hnetloc c hc, hquery, hfragment]
  have hclosed : netloc.contains '[' = false ∧ netloc.contains ']' = false ∧
      netloc.any expandsToDelimiter = false := by
    refine ⟨?_, ?_, ?_⟩
    · rw [List.contains_eq_mem, decide_eq_false_iff_not]
      intro hc
      exact (hof _ (by simp [hc])).2.2.2.2.1 rfl
    · rw [List.contains_eq_mem, decide_eq_false_iff_not]
      intro hc
      exact (hof _ (by simp [hc])).2.2.2.2.2 rfl
    · rw [List.any_eq_false]
      intro c hc
      simp [(hof c (by simp [hc])).2.1]
  have hfragment : cut (· == '#') ('/' :: path) = ('/' :: path, []) := by
    refine cut_of_forall fun c hc => ?_
    rcases List.mem_cons.mp hc with rfl | hc
    · rfl
    · simp [(hof c (by simp [hc])).2.2.2.1]
  have hquery : cut (· == '?') ('/' :: path) = ('/' :: path, []) := by
    refine cut_of_forall fun c hc => ?_
    rcases List.mem_cons.mp hc with rfl | hc
    · rfl
    · simp [(hof c (by simp [hc])).2.2.1]
  simp only [urlsplit, String.toList_ofList, hcleaned, hcolon, hhas, if_true]
  simp only [List.drop_succ_cons, List.drop_zero, List.isPrefixOf_cons_cons, BEq.rfl, Bool.true_and,
    List.isPrefixOf_nil_left, if_true, hauthority, hclosed, bne_self_eq_false, Bool.false_and,
    Bool.or_self, Bool.false_eq_true, if_false, hfragment, hquery, List.drop_nil]

end Url

end CopilotRuntime.Foundation
