import CopilotRuntime.Effects.LedgerPayloads
import CopilotRuntime.Foundation.Decoding
import Mathlib.Data.Bool.Basic

/-!
# References under the ledger's and the claim's validators

A reference that the ledger admits is an opaque URI for a claim, and so is the
proposal reference of a stage. What a claim adds is that a content reference
must not split to the scheme of proposals, however it is spelled.
-/

namespace CopilotRuntime.Effects

open Foundation

/-! ### One reference under two validators -/

/-- A reference the ledger admits is an opaque URI for a claim. -/
theorem safeOpaqueUri_of_opaqueSafeUri {value : String} (h : opaqueSafeUri value = true) :
    safeOpaqueUri false value = true := by
  have hnul : Text.hasChar value '\x00' = true →
      Text.hasChar (Text.replaceChar (Url.unquoteFully value) '\\' '/') '\x00' = true := by
    intro hmem
    rw [Text.hasChar, List.contains_iff_mem] at hmem ⊢
    rw [Text.replaceChar, String.toList_ofList, List.mem_map]
    exact ⟨'\x00', Url.mem_unquoteFully (by decide) (by decide) hmem, by decide⟩
  have hdecodedNul : Text.hasChar (Url.unquoteFully value) '\x00' = true →
      Text.hasChar (Text.replaceChar (Url.unquoteFully value) '\\' '/') '\x00' = true := by
    intro hmem
    rw [Text.hasChar, List.contains_iff_mem] at hmem ⊢
    rw [Text.replaceChar, String.toList_ofList, List.mem_map]
    exact ⟨'\x00', hmem, by decide⟩
  unfold opaqueSafeUri at h
  unfold safeOpaqueUri
  cases hparsed : Url.urlsplit value with
  | none => simp [hparsed] at h
  | some parsed =>
      cases hparts : Url.urlsplit (Url.unquoteFully value) with
      | none => simp [hparsed, hparts] at h
      | some parts =>
          simp only [hparsed, hparts, Bool.and_eq_true, Bool.not_eq_true'] at h
          simp only [hparts, Bool.and_eq_true, Bool.not_eq_true']
          grind

/-- Forbidding the scheme of proposals is the one thing the claim adds for content. -/
theorem safeOpaqueUri_true_iff {value : String} :
    safeOpaqueUri true value = true ↔ safeOpaqueUri false value = true ∧
      ∀ parsed, Url.urlsplit value = some parsed → parsed.scheme ≠ "proposal" := by
  unfold safeOpaqueUri
  cases hparsed : Url.urlsplit value with
  | none => simp
  | some parsed =>
      simp only [Bool.and_eq_true, Option.some.injEq, forall_eq', if_true, Bool.false_eq_true,
        if_false, List.append_nil, List.cons_append, List.nil_append, List.contains_cons,
        Bool.not_eq_true', Bool.or_eq_false_iff, beq_eq_false_iff_ne]
      grind

/-! ### Proposal references -/

/-- The characters of a proposal reference. -/
def isReferenceChar (c : Char) : Bool :=
  Text.isAsciiAlnum c || c == '_' || c == '-' || c == ':' || c == '/'

theorem toNat_lt_of_isReferenceChar {c : Char} (h : isReferenceChar c = true) : c.toNat < 128 := by
  simp only [isReferenceChar, Text.isAsciiAlnum, Text.isDigit, Bool.or_eq_true, Bool.and_eq_true,
    decide_eq_true_eq, beq_iff_eq, Char.le_def, UInt32.le_iff_toNat_le] at h
  unfold Char.toNat
  rcases h with (((((⟨-, h⟩ | ⟨-, h⟩) | ⟨-, h⟩) | rfl) | rfl) | rfl) | rfl
  · change c.val.toNat ≤ 57 at h
    omega
  · change c.val.toNat ≤ 122 at h
    omega
  · change c.val.toNat ≤ 90 at h
    omega
  all_goals decide

theorem isPlain_of_isReferenceChar {c : Char} (h : isReferenceChar c = true) :
    Url.isPlain c = true := by
  have htable : ∀ n < 128, isReferenceChar (Char.ofNat n) = true →
      Url.isPlain (Char.ofNat n) = true := by decide
  have hplain := htable c.toNat (toNat_lt_of_isReferenceChar h)
  rw [Char.ofNat_toNat] at hplain
  exact hplain h

theorem isReferenceChar_of_isLowerHex {c : Char} (h : Text.isLowerHex c = true) :
    isReferenceChar c = true := by
  simp only [Text.isLowerHex, Bool.or_eq_true, Bool.and_eq_true, decide_eq_true_eq] at h
  simp only [isReferenceChar, Text.isAsciiAlnum, Text.isDigit, Bool.or_eq_true,
    Bool.and_eq_true, decide_eq_true_eq]
  rcases h with hdigit | ⟨hlow, hhigh⟩
  · exact .inl (.inl (.inl (.inl (.inl (.inl hdigit)))))
  · exact .inl (.inl (.inl (.inl (.inl (.inr ⟨hlow, Char.le_trans hhigh (by decide)⟩)))))

theorem isReferenceChar_of_uuidPattern {p : Char → Bool} (hp : p ∈ uuidPattern) {c : Char}
    (h : p c = true) : isReferenceChar c = true := by
  have hclass : Text.isLowerHex c = true ∨ c = '-' := by
    simp only [uuidPattern, List.mem_append, List.mem_replicate, List.mem_singleton] at hp
    rcases hp with (((((((((⟨-, rfl⟩ | rfl) | ⟨-, rfl⟩) | rfl) | rfl) | ⟨-, rfl⟩) | rfl) | rfl) |
      ⟨-, rfl⟩) | rfl) | ⟨-, rfl⟩
    case inr | inl.inl.inr | inl.inl.inl.inl.inl.inr | inl.inl.inl.inl.inl.inl.inl.inl.inr |
        inl.inl.inl.inl.inl.inl.inl.inl.inl.inl => exact .inl h
    all_goals
      simp only [Bool.or_eq_true, beq_iff_eq] at h
      first
        | exact .inr h
        | (rcases h with rfl | rfl <;> exact .inl (by decide))
        | (rcases h with ((rfl | rfl) | rfl) | rfl <;> exact .inl (by decide))
  rcases hclass with hhex | rfl
  · exact isReferenceChar_of_isLowerHex hhex
  · decide

theorem isReferenceChar_of_mem_stageId {stageId : String}
    (h : (EffectStageIdCodec.parse stageId).isSome = true) {c : Char} (hc : c ∈ stageId.toList) :
    isReferenceChar c = true := by
  obtain ⟨uuid, hparse⟩ := Option.isSome_iff_exists.mp h
  obtain ⟨raw, hdrop, hcanonical⟩ := Option.bind_eq_some_iff.mp hparse
  have hraw : isCanonicalUuid raw = true := by
    by_contra hnot
    rw [if_neg hnot] at hcanonical
    cases hcanonical
  obtain ⟨hlength, hall⟩ := Bool.and_eq_true_iff.mp hraw
  unfold Text.dropPrefix? at hdrop
  split at hdrop
  · next hpre =>
      obtain ⟨rest, hrest⟩ := List.isPrefixOf_iff_prefix.mp hpre
      rw [← hrest, List.drop_left] at hdrop
      obtain rfl := Option.some.inj hdrop
      rw [← hrest, List.mem_append] at hc
      rcases hc with hc | hc
      · exact List.all_eq_true.mp (by decide : "stg_".toList.all isReferenceChar = true) c hc
      · obtain ⟨p, hp, hpc⟩ := exists_of_all_zipWith (beq_iff_eq.mp hlength) hall c hc
        exact isReferenceChar_of_uuidPattern hp hpc
  · cases hdrop

theorem splitChars_eq_cons_cons {sep : Char} {s a b : List Char} {parts : List (List Char)}
    (h : Text.splitChars sep s = a :: b :: parts) :
    ∃ rest, s = a ++ sep :: rest ∧ Text.splitChars sep rest = b :: parts := by
  induction s generalizing a b parts with
  | nil => cases h
  | cons c rest ih =>
      unfold Text.splitChars at h
      split at h
      · cases h
      · next first others hrest =>
          split at h
          · next heq =>
              obtain ⟨rfl, hparts⟩ := List.cons.inj h
              rw [heq]
              exact ⟨rest, rfl, hrest.trans hparts⟩
          · obtain ⟨rfl, hparts⟩ := List.cons.inj h
            subst hparts
            obtain ⟨rest', hrest', hsplit⟩ := ih hrest
            exact ⟨rest', by rw [hrest', List.cons_append], hsplit⟩

theorem splitChars_eq_singleton {sep : Char} {s a : List Char}
    (h : Text.splitChars sep s = [a]) : s = a := by
  induction s generalizing a with
  | nil =>
      obtain rfl := List.head_eq_of_cons_eq h
      rfl
  | cons c rest ih =>
      unfold Text.splitChars at h
      split at h
      · next hnone => exact (Text.splitChars_ne_nil sep rest hnone).elim
      · next first others hrest =>
          split at h
          · cases h
          · obtain ⟨rfl, rfl⟩ := List.cons.inj h
            rw [ih hrest]

/-- A proposal reference is its stage id and its revision number behind the fixed words. -/
theorem shape_of_parse {reference : String} {parsed : ParsedProposalRef}
    (h : ProposalUriCodec.parse reference = some parsed) :
    ∃ digits : List Char, digits ≠ [] ∧ (∀ c ∈ digits, Text.isDigit c = true) ∧
      (EffectStageIdCodec.parse parsed.stageId).isSome = true ∧
      reference.toList = "proposal".toList ++ ':' :: '/' :: '/' ::
        (parsed.stageId.toList ++ '/' :: ("revisions/".toList ++ digits)) ∧
      reference.length ≤ maxReferenceLength ∧ Text.strip reference = reference := by
  unfold ProposalUriCodec.parse at h
  split at h
  · next stageId revision hparts =>
      split at h
      · next hstage =>
          obtain ⟨n, hrevision, rfl⟩ := Option.map_eq_some_iff.mp h
          unfold referenceParts at hparts
          split at hparts
          · next hbounds =>
              simp only [Bool.and_eq_true, decide_eq_true_eq, beq_iff_eq] at hbounds
              obtain ⟨rest, hdrop, hsplit⟩ := Option.map_eq_some_iff.mp hparts
              unfold Text.dropPrefix? at hdrop
              split at hdrop
              · next hpre =>
                  obtain ⟨tail, htail⟩ := List.isPrefixOf_iff_prefix.mp hpre
                  rw [← htail, List.drop_left] at hdrop
                  obtain rfl := Option.some.inj hdrop
                  obtain ⟨a, as, hchars, ha, hrest⟩ := List.map_eq_cons_iff.mp hsplit
                  obtain ⟨b, bs, rfl, hb, hrest⟩ := List.map_eq_cons_iff.mp hrest
                  obtain ⟨c, cs, rfl, hc, hrest⟩ := List.map_eq_cons_iff.mp hrest
                  obtain rfl := List.map_eq_nil_iff.mp hrest
                  obtain ⟨afterStage, htailEq, hwords⟩ := splitChars_eq_cons_cons hchars
                  obtain ⟨afterWord, hafterStage, hnumerals⟩ := splitChars_eq_cons_cons hwords
                  have hafterWord := splitChars_eq_singleton hnumerals
                  have hnumeral : revision.toList = c := by
                    rw [← hc, String.toList_ofList]
                  have hstageChars : stageId.toList = a := by rw [← ha, String.toList_ofList]
                  have hword : b = "revisions".toList := by rw [← hb, String.toList_ofList]
                  have hdigits : Text.decimal? c ≠ none := by
                    unfold parseRevision at hrevision
                    rw [hnumeral] at hrevision
                    intro hnone
                    rw [hnone] at hrevision
                    cases hrevision
                  unfold Text.decimal? at hdigits
                  split at hdigits
                  · exact (hdigits rfl).elim
                  · next hvalid =>
                      simp only [Bool.or_eq_true, Bool.not_eq_true', not_or, Bool.not_eq_true,
                        Bool.not_eq_false, List.isEmpty_eq_false_iff, List.all_eq_true] at hvalid
                      refine ⟨c, hvalid.1, hvalid.2, hstage, ?_, hbounds.1, hbounds.2⟩
                      rw [← htail, htailEq, hafterStage, hafterWord, hstageChars, hword]
                      simp
              · cases hdrop
          · cases hparts
      · cases h
  · cases h

theorem isReferenceChar_of_isDigit {c : Char} (h : Text.isDigit c = true) :
    isReferenceChar c = true := by
  simp [isReferenceChar, Text.isAsciiAlnum, h]

/-- The proposal reference of a stage is an opaque URI for its claim. -/
theorem safeOpaqueUri_of_parse {reference : String} {parsed : ParsedProposalRef}
    (h : ProposalUriCodec.parse reference = some parsed) : safeOpaqueUri false reference = true := by
  obtain ⟨digits, hnonempty, hdigits, hstage, hshape, hlength, hstrip⟩ := shape_of_parse h
  have hword : ∀ c ∈ "proposal".toList, isReferenceChar c = true :=
    List.all_eq_true.mp (by decide)
  have hpath : ∀ c ∈ "revisions/".toList, isReferenceChar c = true :=
    List.all_eq_true.mp (by decide)
  have hchars : ∀ c ∈ reference.toList, isReferenceChar c = true := by
    intro c hc
    rw [hshape] at hc
    simp only [List.mem_append, List.mem_cons] at hc
    rcases hc with hc | rfl | rfl | rfl | hc | rfl | hc | hc
    · exact hword c hc
    · decide
    · decide
    · decide
    · exact isReferenceChar_of_mem_stageId hstage hc
    · decide
    · exact hpath c hc
    · exact isReferenceChar_of_isDigit (hdigits c hc)
  have hmissing : ∀ c, isReferenceChar c = false → Text.hasChar reference c = false := by
    intro c hc
    rw [Text.hasChar, List.contains_eq_mem, decide_eq_false_iff_not]
    intro hmem
    rw [hchars c hmem] at hc
    cases hc
  have hdecoded : Url.unquoteFully reference = reference := by
    refine Url.unquoteFully_of_no_percent fun hmem => ?_
    have hpercent := hchars _ hmem
    revert hpercent
    decide
  have hsplit : Url.urlsplit reference = some ⟨"proposal", parsed.stageId,
      String.ofList ('/' :: ("revisions/".toList ++ digits)), "", ""⟩ := by
    have hurl : Url.urlsplit (String.ofList ("proposal".toList ++ ':' :: '/' :: '/' ::
        (parsed.stageId.toList ++ '/' :: ("revisions/".toList ++ digits)))) =
          some ⟨"proposal", String.ofList parsed.stageId.toList,
            String.ofList ('/' :: ("revisions/".toList ++ digits)), "", ""⟩ := by
      refine Url.urlsplit_plain rfl (by decide) (List.all_eq_true.mp (by decide))
        (fun c hc => ?_) (fun c hc => ?_)
      · rintro rfl
        exact (stageId_chars hstage).1 hc
      · rw [List.mem_append, List.mem_append, List.mem_append] at hc
        refine isPlain_of_isReferenceChar ?_
        rcases hc with (hc | hc) | hc | hc
        · exact hword c hc
        · exact isReferenceChar_of_mem_stageId hstage hc
        · exact hpath c hc
        · exact isReferenceChar_of_isDigit (hdigits c hc)
    rw [← hshape, String.ofList_toList, String.ofList_toList] at hurl
    exact hurl
  have hslash : '/' ∉ digits := fun hmem => absurd (hdigits _ hmem) (by decide)
  have hstageSegments : ((Text.split parsed.stageId '/').any isDotSegment) = false := by
    rw [Text.split, Text.splitChars_of_not_mem (stageId_chars hstage).1]
    have hlong := (stageId_chars hstage).2
    have hdots : parsed.stageId ≠ "." ∧ parsed.stageId ≠ ".." := by
      constructor <;> rintro hdot <;> rw [hdot] at hlong <;> revert hlong <;> decide
    simp [isDotSegment, hdots]
  have hpathSegments : ((Text.split (String.ofList ('/' :: ("revisions/".toList ++ digits)))
      '/').any isDotSegment) = false := by
    have hcut : Text.splitChars '/' ('/' :: ("revisions/".toList ++ digits)) =
        [[], "revisions".toList, digits] := by
      have hsecond : Text.splitChars '/' ("revisions".toList ++ '/' :: digits) =
          "revisions".toList :: Text.splitChars '/' digits :=
        Text.splitChars_append (by decide) digits
      rw [Text.splitChars_of_not_mem hslash] at hsecond
      have hfirst : Text.splitChars '/' ([] ++ '/' :: ("revisions/".toList ++ digits)) =
          [] :: Text.splitChars '/' ("revisions/".toList ++ digits) :=
        Text.splitChars_append List.not_mem_nil _
      have hword : "revisions/".toList ++ digits = "revisions".toList ++ '/' :: digits := by simp
      rw [hword, hsecond, List.nil_append, ← hword] at hfirst
      exact hfirst
    have hnumeral : ∀ c : Char, Text.isDigit c = false → c ∉ digits := by
      intro c hc hmem
      rw [hdigits c hmem] at hc
      cases hc
    have hdots : String.ofList digits ≠ "." ∧ String.ofList digits ≠ ".." := by
      constructor <;> intro hdot <;> have hlist := congrArg String.toList hdot <;>
        rw [String.toList_ofList] at hlist <;>
        exact hnumeral '.' (by decide) (by rw [hlist]; decide)
    rw [Text.split, String.toList_ofList, hcut]
    simp only [List.map_cons, List.map_nil, List.any_cons, List.any_nil, isDotSegment,
      beq_eq_false_iff_ne.mpr hdots.1, beq_eq_false_iff_ne.mpr hdots.2]
    decide
  have hempty : ((Text.split "" '/').any isDotSegment) = false := by decide
  have hslashes : Text.startsWith (String.ofList ('/' :: ("revisions/".toList ++ digits))) "//" =
      false := by
    simp [Text.startsWith, List.isPrefixOf]
  have hfront : reference.toList = 'p' :: 'r' :: 'o' :: ("posal".toList ++ ':' :: '/' :: '/' ::
      (parsed.stageId.toList ++ '/' :: ("revisions/".toList ++ digits))) := by
    rw [hshape]
    rfl
  have hstart : startsWithAny reference ["/", "~", "\\"] = false := by
    simp only [startsWithAny, Text.startsWith, hfront, List.any_cons, List.any_nil]
    rfl
  have hdrive : hasDriveMarker reference = false := by
    simp [hasDriveMarker, hfront]
  have hstageNonempty : parsed.stageId ≠ "" := by
    intro hnone
    have hlong := (stageId_chars hstage).2
    rw [hnone] at hlong
    cases hlong
  have hvalue : reference.isEmpty = false := by
    rw [String.isEmpty_eq_false_iff]
    rintro rfl
    cases hfront
  unfold safeOpaqueUri
  simp only [hdecoded, hsplit, hvalue, hlength, hstrip, hmissing '\n' (by decide),
    hmissing '\r' (by decide), hmissing '\x00' (by decide), hmissing '\\' (by decide), hstart,
    hdrive, hslashes, List.all_cons, List.all_nil, hstageSegments, hpathSegments, hempty]
  simp [hstageNonempty]

end CopilotRuntime.Effects
