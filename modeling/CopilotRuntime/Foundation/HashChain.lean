import Mathlib.Data.List.Induction

/-!
# Hash chains

Every entry of a chain carries a value, a signature, and the signature of the
entry before it. Where a signature commits to the entry that carries it, a
chain that only reuses signatures of another chain is a prefix of it.

## Implementation notes

Commitment is a hypothesis on the two chains at hand, not on a signature
scheme: equal signatures stand on equal entries.
-/

namespace CopilotRuntime.Foundation

universe u v

namespace HashChain

variable {Sig : Type u} {Body : Type v}

/-- One entry of a chain. -/
structure Link (Sig : Type u) (Body : Type v) where
  prev : Option Sig
  body : Body
  signature : Sig

/-- The signature a chain ends with. -/
def lastSignature (links : List (Link Sig Body)) : Option Sig := links.getLast?.map Link.signature

@[simp] theorem lastSignature_nil : lastSignature ([] : List (Link Sig Body)) = none := rfl

@[simp] theorem lastSignature_snoc (links : List (Link Sig Body)) (link : Link Sig Body) :
    lastSignature (links ++ [link]) = some link.signature := by
  simp [lastSignature]

/-- Every entry names the signature of the entry before it, the first entry the given one. -/
def LinkedFrom : Option Sig → List (Link Sig Body) → Prop
  | _, [] => True
  | prev, link :: rest => link.prev = prev ∧ LinkedFrom (some link.signature) rest

/-- A chain from its genesis. -/
abbrev Linked (links : List (Link Sig Body)) : Prop := LinkedFrom none links

theorem linkedFrom_append {prev : Option Sig} {links more : List (Link Sig Body)} :
    LinkedFrom prev (links ++ more) ↔
      LinkedFrom prev links ∧ LinkedFrom ((lastSignature links).or prev) more := by
  induction links generalizing prev with
  | nil => simp [LinkedFrom]
  | cons link rest ih =>
      have hlast : ∀ other, (lastSignature (link :: rest)).or other =
          (lastSignature rest).or (some link.signature) := by
        intro other
        cases rest using List.reverseRecOn with
        | nil => rfl
        | append_singleton front last _ =>
            rw [← List.cons_append, lastSignature_snoc, lastSignature_snoc]
            rfl
      simp only [List.cons_append, LinkedFrom, ih, hlast, and_assoc]

/-- A last entry is linked to the signature the chain before it ends with. -/
theorem linked_snoc {links : List (Link Sig Body)} {link : Link Sig Body} :
    Linked (links ++ [link]) ↔ Linked links ∧ link.prev = lastSignature links := by
  simp [linkedFrom_append, LinkedFrom]

theorem Linked.of_prefix {links whole : List (Link Sig Body)} (h : Linked whole)
    (hpre : links <+: whole) : Linked links := by
  obtain ⟨more, rfl⟩ := hpre
  exact (linkedFrom_append.mp h).1

/-- Entries of the first list that share a signature with an entry of the second are that entry. -/
def Commits (links others : List (Link Sig Body)) : Prop :=
  ∀ link ∈ links, ∀ other ∈ others, link.signature = other.signature → link = other

/-- Two prefixes of a committed chain that end with the same signature are the same. -/
theorem prefix_unique {whole first second : List (Link Sig Body)} (hlinked : Linked whole)
    (hcommits : Commits whole whole) (hfirst : first <+: whole) (hsecond : second <+: whole)
    (hlast : lastSignature first = lastSignature second) : first = second := by
  induction first using List.reverseRecOn generalizing second with
  | nil =>
      cases second using List.reverseRecOn with
      | nil => rfl
      | append_singleton rest last _ => simp at hlast
  | append_singleton front link ih =>
      cases second using List.reverseRecOn with
      | nil => simp at hlast
      | append_singleton rest last _ =>
          rw [lastSignature_snoc, lastSignature_snoc] at hlast
          obtain rfl : link = last :=
            hcommits link (hfirst.subset (by simp)) last (hsecond.subset (by simp))
              (Option.some.inj hlast)
          have hfront := linked_snoc.mp (hlinked.of_prefix hfirst)
          have hrest := linked_snoc.mp (hlinked.of_prefix hsecond)
          obtain rfl : front = rest :=
            ih ((List.prefix_append front [link]).trans hfirst)
              ((List.prefix_append rest [link]).trans hsecond) (hfront.2.symm.trans hrest.2)
          rfl

/-- A chain whose signatures all come from a committed chain is a prefix of it. -/
theorem isPrefix_of_commits {whole links : List (Link Sig Body)} (hwhole : Linked whole)
    (hcommits : Commits whole whole) (hlinks : Linked links) (hfrom : Commits links whole)
    (hknown : ∀ link ∈ links, link.signature ∈ whole.map Link.signature) : links <+: whole := by
  induction links using List.reverseRecOn with
  | nil => exact List.nil_prefix
  | append_singleton front link ih =>
      have hlinked := linked_snoc.mp hlinks
      have hfront : front <+: whole :=
        ih hlinked.1 (fun a ha => hfrom a (List.mem_append_left _ ha))
          fun a ha => hknown a (List.mem_append_left _ ha)
      obtain ⟨other, hother, hsignature⟩ := List.mem_map.mp (hknown link (by simp))
      obtain rfl : link = other := hfrom link (by simp) other hother hsignature.symm
      obtain ⟨before, after, hsplit⟩ := List.append_of_mem hother
      have hbefore : before ++ [link] <+: whole := ⟨after, by simp [hsplit]⟩
      have hprev := (linked_snoc.mp (hwhole.of_prefix hbefore)).2
      -- The link stands where its predecessor's signature puts it: right after `front`.
      obtain rfl : before = front :=
        prefix_unique hwhole hcommits ((List.prefix_append before [link]).trans hbefore) hfront
          (hprev.symm.trans hlinked.2)
      exact hbefore

end HashChain

end CopilotRuntime.Foundation
