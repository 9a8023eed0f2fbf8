import CopilotRuntime.Foundation.Url

/-!
# Identifier and reference codecs

Stage ids carry a canonical UUID behind a fixed prefix. Proposal and receipt
references name their stage, and each codec rejects every other spelling.
-/

namespace CopilotRuntime.Effects

open Foundation

/-- The longest opaque reference any codec reads. -/
def maxReferenceLength : Nat := 2048

def claimIdMaxLength : Nat := 128

/-- Revisions must be exact in every client language. -/
def maxSafeInteger : Nat := 9007199254740991

/-- One character class for each position of a canonical UUID of version 4 or 7. -/
def uuidPattern : List (Char → Bool) :=
  let hex := Text.isLowerHex
  let dash := fun c => c == '-'
  List.replicate 8 hex ++ [dash] ++ List.replicate 4 hex ++ [dash] ++
    [fun c => c == '4' || c == '7'] ++ List.replicate 3 hex ++ [dash] ++
    [fun c => c == '8' || c == '9' || c == 'a' || c == 'b'] ++ List.replicate 3 hex ++ [dash] ++
    List.replicate 12 hex

def isCanonicalUuid (s : List Char) : Bool :=
  s.length == uuidPattern.length && (List.zipWith (fun p c => p c) uuidPattern s).all id

/-- Read the UUID behind a fixed prefix. -/
def parsePrefixedUuid (pre : String) (text : String) : Option String :=
  (Text.dropPrefix? text.toList pre.toList).bind fun raw =>
    if isCanonicalUuid raw then some (String.ofList raw) else none

def EffectStageIdCodec.parse : String → Option String := parsePrefixedUuid "stg_"

def OperationIdCodec.parse : String → Option String := parsePrefixedUuid "op_"

/-- The tail of a reference after its scheme, split at slashes. The reference is
short and free of surrounding blanks, and no captured part is a dot segment. -/
def referenceParts (scheme : String) (text : String) : Option (List String) :=
  if text.length ≤ maxReferenceLength && Text.strip text == text then
    (Text.dropPrefix? text.toList scheme.toList).map fun rest =>
      (Text.splitChars '/' rest).map String.ofList
  else none

def isDotSegment (s : String) : Bool := s == "." || s == ".."

/-- A positive decimal revision without leading zeros, inside the safe range. -/
def parseRevision (text : String) : Option Nat :=
  match Text.decimal? text.toList with
  | some n =>
      if text.toList.head? != some '0' && 1 ≤ n && n ≤ maxSafeInteger then some n else none
  | none => none

theorem parseRevision_toString {n : Nat} (hpos : 1 ≤ n) (hle : n ≤ maxSafeInteger) :
    parseRevision (toString n) = some n := by
  have hchars : (toString n).toList = Nat.toDigits 10 n := Nat.toList_repr
  unfold parseRevision
  rw [hchars, Text.decimal?_toDigits]
  have hhead := Text.head?_toDigits_ne_zero n hpos
  simp [hhead, hpos, hle]

theorem exists_of_all_zipWith {α : Type} {ps : List (α → Bool)} {xs : List α}
    (hlength : xs.length = ps.length) (h : (List.zipWith (fun p x => p x) ps xs).all id = true) :
    ∀ x ∈ xs, ∃ p ∈ ps, p x = true := by
  induction xs generalizing ps with
  | nil => simp
  | cons x rest ih =>
      cases ps with
      | nil => cases hlength
      | cons p more =>
          simp only [List.zipWith_cons_cons, List.all_cons, Bool.and_eq_true, id_eq] at h
          intro y hy
          rcases List.mem_cons.mp hy with rfl | hy
          · exact ⟨p, List.mem_cons_self, h.1⟩
          · obtain ⟨q, hq, hqy⟩ := ih (Nat.succ.inj hlength) h.2 y hy
            exact ⟨q, List.mem_cons_of_mem _ hq, hqy⟩

/-- A stage id is short and holds no slash. -/
theorem stageId_chars {stageId : String} (h : (EffectStageIdCodec.parse stageId).isSome) :
    '/' ∉ stageId.toList ∧ stageId.length = 40 := by
  obtain ⟨uuid, hparse⟩ := Option.isSome_iff_exists.mp h
  obtain ⟨raw, hdrop, hcanonical⟩ := Option.bind_eq_some_iff.mp hparse
  have hraw : isCanonicalUuid raw = true := by
    by_contra hnot
    rw [if_neg hnot] at hcanonical
    cases hcanonical
  obtain ⟨hlength, hall⟩ := Bool.and_eq_true_iff.mp hraw
  have hlength : raw.length = uuidPattern.length := beq_iff_eq.mp hlength
  unfold Text.dropPrefix? at hdrop
  split at hdrop
  · next hpre =>
      obtain ⟨rest, hrest⟩ := List.isPrefixOf_iff_prefix.mp hpre
      have hrestRaw : rest = raw := by
        rw [← hrest] at hdrop
        simpa using hdrop
      subst hrestRaw
      refine ⟨?_, ?_⟩
      · rw [← hrest, List.mem_append, not_or]
        refine ⟨by decide, fun hmem => ?_⟩
        obtain ⟨p, hp, hslash⟩ := exists_of_all_zipWith hlength hall '/' hmem
        have hnone : ∀ p ∈ uuidPattern, p '/' = false := by decide
        rw [hnone p hp] at hslash
        cases hslash
      · rw [← String.length_toList, ← hrest, List.length_append, hlength]
        rfl
  · cases hdrop

/-- The stage and revision a canonical proposal reference names. -/
structure ParsedProposalRef where
  stageId : String
  revision : Nat
  deriving DecidableEq

namespace ProposalUriCodec

def format (stageId : String) (revision : Nat) : Option String :=
  if (EffectStageIdCodec.parse stageId).isSome && 1 ≤ revision && revision ≤ maxSafeInteger then
    some ("proposal://" ++ stageId ++ "/revisions/" ++ toString revision)
  else none

def parse (text : String) : Option ParsedProposalRef :=
  match referenceParts "proposal://" text with
  | some [stageId, "revisions", revision] =>
      if (EffectStageIdCodec.parse stageId).isSome then
        (parseRevision revision).map fun n => ⟨stageId, n⟩
      else none
  | _ => none

/-- A formatted reference is read back as what it names. -/
theorem parse_format {stageId reference : String} {revision : Nat}
    (h : format stageId revision = some reference) :
    parse reference = some ⟨stageId, revision⟩ := by
  unfold format at h
  by_cases hvalid : ((EffectStageIdCodec.parse stageId).isSome && decide (1 ≤ revision) &&
      decide (revision ≤ maxSafeInteger)) = true
  · rw [if_pos hvalid] at h
    simp only [Bool.and_eq_true, decide_eq_true_eq] at hvalid
    obtain ⟨⟨hstage, hpos⟩, hle⟩ := hvalid
    obtain ⟨hslash, hstageLength⟩ := stageId_chars hstage
    obtain rfl := Option.some.inj h
    have htext : ("proposal://" ++ stageId ++ "/revisions/" ++ toString revision).toList =
        "proposal://".toList ++ (stageId.toList ++ '/' :: ("revisions".toList ++
          '/' :: Nat.toDigits 10 revision)) := by
      simp [String.toList_append]
    obtain ⟨front, last, hdigits⟩ : ∃ front last, Nat.toDigits 10 revision = front ++ [last] := by
      rcases List.eq_nil_or_concat (Nat.toDigits 10 revision) with hnil | ⟨front, last, hconcat⟩
      · exact (Nat.toDigits_ne_nil hnil).elim
      · exact ⟨front, last, by simpa using hconcat⟩
    have hlast : Text.isSpace last = false := by
      exact Text.not_isSpace_of_isDigit (Text.isDigit_of_mem_toDigits (n := revision) (by simp [hdigits]))
    have hstrip : Text.strip ("proposal://" ++ stageId ++ "/revisions/" ++ toString revision) =
        "proposal://" ++ stageId ++ "/revisions/" ++ toString revision := by
      rw [Text.strip, htext, hdigits]
      have hshape : "proposal://".toList ++ (stageId.toList ++ '/' :: ("revisions".toList ++
          '/' :: (front ++ [last]))) = 'p' :: (("roposal://".toList ++ (stageId.toList ++ '/' ::
            ("revisions".toList ++ '/' :: front))) ++ [last]) := by
        simp
      rw [hshape, Text.stripWhere_eq_self (by decide) hlast, ← hshape, ← hdigits, ← htext,
        String.ofList_toList]
    have hlength : ("proposal://" ++ stageId ++ "/revisions/" ++ toString revision).length ≤
        maxReferenceLength := by
      have hshort : (Nat.toDigits 10 revision).length ≤ 16 := by
        rw [Nat.length_toDigits_le_iff (by decide) (by decide)]
        exact Nat.lt_of_le_of_lt hle (by decide)
      rw [← String.length_toList, htext]
      simp only [List.length_append, List.length_cons, String.length_toList, hstageLength]
      have hscheme : "proposal://".length = 11 := by decide
      have hword : "revisions".length = 9 := by decide
      rw [hscheme, hword]
      unfold maxReferenceLength
      omega
    have hparts : referenceParts "proposal://"
        ("proposal://" ++ stageId ++ "/revisions/" ++ toString revision) =
          some [stageId, "revisions", toString revision] := by
      unfold referenceParts
      rw [hstrip, if_pos (by simpa using hlength), htext, Text.dropPrefix?,
        if_pos (List.isPrefixOf_iff_prefix.mpr (List.prefix_append _ _)), List.drop_left]
      rw [Option.map_some, Text.splitChars_append hslash, Text.splitChars_append (by decide),
        Text.splitChars_of_not_mem ?_]
      · simp [Nat.repr_eq_ofList_toDigits]
      · intro hmem
        have hdigit := Text.isDigit_of_mem_toDigits hmem
        exact absurd hdigit (by decide)
    unfold parse
    rw [hparts]
    have hrevision : parseRevision revision.repr = some revision := parseRevision_toString hpos hle
    simp [hstage, hrevision]
  · rw [if_neg hvalid] at h
    cases h

end ProposalUriCodec

/-- Lower-case tokens without a parent-directory marker. -/
def isClaimIdText (s : String) : Bool :=
  let tail := fun c => Text.isDigit c || ('a' ≤ c && c ≤ 'z') || c == '.' || c == '_' || c == '-'
  Text.matchesToken (fun c => Text.isDigit c || ('a' ≤ c && c ≤ 'z')) tail 127 s &&
    !Text.contains s ".."

/-- The stage and claim a receipt reference names. -/
structure ParsedEffectReceiptRef where
  stageId : String
  claimId : String
  deriving DecidableEq

namespace EffectReceiptRefCodec

def parse (text : String) : Option ParsedEffectReceiptRef :=
  match referenceParts "receipt://effects/" text with
  | some [stageId, claimId] =>
      if !isDotSegment claimId && (EffectStageIdCodec.parse stageId).isSome &&
          claimId.length ≤ claimIdMaxLength && isClaimIdText claimId then
        some ⟨stageId, claimId⟩
      else none
  | _ => none

end EffectReceiptRefCodec

namespace LedgerIdCodec

def prefixText : String := "r"

def shortLength : Nat := 3

def sequenceWidth : Nat := 3

/-- A decimal numeral, padded on the left to the minimal width. -/
def paddedDigits (n : Nat) : List Char :=
  let digits := Nat.toDigits 10 n
  List.replicate (sequenceWidth - digits.length) '0' ++ digits

/-- The user-visible id of one position in a run's ledger. -/
def format (runId : String) (sequenceNo : Nat) : Option String :=
  let normalized := (Text.lower runId).toList.filter (· != '-')
  if 1 ≤ sequenceNo && shortLength ≤ normalized.length then
    some (prefixText ++ String.ofList (normalized.take shortLength) ++ "·" ++
      String.ofList (paddedDigits sequenceNo))
  else none

theorem paddedDigits_injective {n m : Nat} (h : paddedDigits n = paddedDigits m) : n = m := by
  have value (k : Nat) : Nat.ofDigitChars 10 (paddedDigits k) 0 = k := by
    simp [paddedDigits, Nat.ofDigitChars_append, Nat.ofDigitChars_replicate_zero]
  rw [← value n, h, value m]

/-- Within one run, a ledger id determines its position. -/
theorem format_injective {runId id : String} {n m : Nat}
    (hn : format runId n = some id) (hm : format runId m = some id) : n = m := by
  simp only [format, Option.ite_none_right_eq_some] at hn hm
  have heq := Option.some.inj (hn.2.trans hm.2.symm)
  have hchars := congrArg String.toList heq
  simp only [String.toList_append, List.append_cancel_left_eq, String.toList_ofList] at hchars
  exact paddedDigits_injective hchars

end LedgerIdCodec

def isSha256Hex (s : String) : Bool := s.length == 64 && s.toList.all Text.isLowerHex

example : ProposalUriCodec.parse "proposal://stg_0f8fad5b-d9cb-469f-a165-70867728950e/revisions/3" =
    some ⟨"stg_0f8fad5b-d9cb-469f-a165-70867728950e", 3⟩ := by decide

end CopilotRuntime.Effects
