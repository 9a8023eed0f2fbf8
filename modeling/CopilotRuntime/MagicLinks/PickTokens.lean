import CopilotRuntime.Foundation.JsonParser
import CopilotRuntime.MagicLinks.Service

/-!
# Pick tokens are read back

A token that was signed gives the claims that it was made of.
-/

namespace CopilotRuntime.MagicLinks

open Foundation
open Lockout (second)

/-- What the codec of pick tokens relies on: a value is read back with its keys sorted, and an
integer is one. -/
structure LinkLibrary.Lawful (library : LinkLibrary) : Prop where
  readSegment : ∀ v : Json, v.canonical.KeysDistinct →
    library.readSegment (b64urlEncode (library.dumps v)) = some v.canonical
  toInt : ∀ n, library.toInt (.int n) = .ok n

variable {library : LinkLibrary}

theorem isAscii_b64urlEncode (bytes : List UInt8) : isAscii (b64urlEncode bytes) = true := by
  rw [isAscii, b64urlEncode, String.toList_ofList, List.all_eq_true]
  intro c hc
  exact decide_eq_true (Base64Url.plain_of_mem_encode hc).2

theorem dot_not_mem_b64urlEncode (bytes : List UInt8) : '.' ∉ (b64urlEncode bytes).toList := by
  rw [b64urlEncode, String.toList_ofList]
  intro hdot
  exact (Base64Url.plain_of_mem_encode hdot).1 rfl

theorem splitOnce_append {sep : Char} {before : List Char} (h : sep ∉ before)
    (after : List Char) : splitOnce sep (before ++ sep :: after) = some (before, after) := by
  induction before with
  | nil => simp [splitOnce]
  | cons c rest ih =>
      rw [List.mem_cons, not_or] at h
      rw [List.cons_append, splitOnce, if_neg (Ne.symm h.1), ih h.2]
      rfl

/-- The claims of a token in the order of their names. -/
def pickFields (userId : String) (candidateOrgs : List String) (stamp : Int × String) :
    List (String × Json) :=
  [("exp", .int (stamp.1.tdiv second + pickTokenTtlSeconds)), ("orgs", .strings candidateOrgs),
    ("tid", .str ("pick_" ++ stamp.2)), ("user_id", .str userId)]

section Claims
variable (userId : String) (candidateOrgs : List String) (stamp : Int × String)

theorem canonicalItems_strings :
    Json.canonicalItems (candidateOrgs.map Json.str) = candidateOrgs.map Json.str := by
  induction candidateOrgs with
  | nil => rfl
  | cons org rest ih =>
      rw [List.map_cons, Json.canonicalItems, ih]
      rfl

theorem canonical_pickPayload :
    (pickPayload userId candidateOrgs stamp).canonical =
      .obj (pickFields userId candidateOrgs stamp) := by
  have hstrings : (Json.strings candidateOrgs).canonical = Json.strings candidateOrgs :=
    congrArg Json.arr (canonicalItems_strings candidateOrgs)
  have hfields : (pickPayload userId candidateOrgs stamp).canonical = .obj (Json.sortFields
      [("user_id", .str userId), ("orgs", (Json.strings candidateOrgs).canonical),
        ("exp", .int (stamp.1.tdiv second + pickTokenTtlSeconds)),
        ("tid", .str ("pick_" ++ stamp.2))]) := rfl
  have horder : "orgs" < "user_id" ∧ "exp" < "orgs" ∧ ¬ "tid" < "exp" ∧ ¬ "tid" < "orgs" ∧
      "tid" < "user_id" := by decide
  rw [hfields, hstrings]
  simp [Json.sortFields, Json.insertField, horder, pickFields]

theorem keysDistinct_pickFields :
    (Json.obj (pickFields userId candidateOrgs stamp)).KeysDistinct := by
  refine ⟨?_, trivial, ?_, trivial, trivial, trivial⟩
  · change ["exp", "orgs", "tid", "user_id"].Nodup
    decide
  · refine Json.itemsDistinct_iff.mpr fun item hitem => ?_
    obtain ⟨org, -, rfl⟩ := List.mem_map.mp hitem
    exact trivial

theorem mapM_readText : (candidateOrgs.map Json.str).mapM readText = some candidateOrgs := by
  induction candidateOrgs with
  | nil => rfl
  | cons org rest ih => rw [List.map_cons, List.mapM_cons, ih]; rfl

theorem readClaims_pickFields :
    readClaims (pickFields userId candidateOrgs stamp) =
      .ok ⟨userId, candidateOrgs, .str ("pick_" ++ stamp.2)⟩ := by
  have horgs : Json.lookup (pickFields userId candidateOrgs stamp) "orgs" =
      some (.arr (candidateOrgs.map Json.str)) := rfl
  have hid : Json.lookup (pickFields userId candidateOrgs stamp) "user_id" =
      some (.str userId) := rfl
  unfold readClaims
  simp only [hid, horgs, mapM_readText]
  rfl

/-- A signed token is verified, and its claims are those that it was made of. -/
theorem verified_signed (h : library.Lawful) :
    verified library (signed library (pickPayload userId candidateOrgs stamp)) =
      .ok (pickFields userId candidateOrgs stamp) := by
  let segment := b64urlEncode (library.dumps (pickPayload userId candidateOrgs stamp))
  have htext : (signed library (pickPayload userId candidateOrgs stamp)).toList =
      segment.toList ++ '.' :: (b64urlEncode (library.hmac segment)).toList := by
    simp [signed, segment]
  have hcanonical := canonical_pickPayload userId candidateOrgs stamp
  have hread : library.readSegment segment =
      some (.obj (pickFields userId candidateOrgs stamp)) := by
    rw [← hcanonical]
    exact h.readSegment _ (hcanonical ▸ keysDistinct_pickFields userId candidateOrgs stamp)
  rw [verified, htext, splitOnce_append (dot_not_mem_b64urlEncode _)]
  dsimp only
  rw [String.ofList_toList, String.ofList_toList, isAscii_b64urlEncode, isAscii_b64urlEncode, hread]
  simp [segment]

theorem claimedExp_pickFields (h : library.Lawful) :
    claimedExp library (pickFields userId candidateOrgs stamp) =
      .ok (stamp.1.tdiv second + pickTokenTtlSeconds) := by
  have hexp : claimedExp library (pickFields userId candidateOrgs stamp) =
      (library.toInt (.int (stamp.1.tdiv second + pickTokenTtlSeconds))).mapError .valueError := rfl
  rw [hexp, h.toInt]
  rfl

end Claims

end CopilotRuntime.MagicLinks
