import CopilotRuntime.Transcript.Folds

/-!
# Turns

What a turn is made of: spans of prose, each opened by one event, extended by the deltas of its
kind that follow and perhaps replaced by one later event. Both transcript folds build the parts
of the turn that the main agent's events spell.

## Implementation notes

A turn keeps the spans before the open one, the open one and the summaries that arrived since it
was opened, so a delta of the same kind still reaches the open span.
-/

namespace CopilotRuntime.Transcript

open Foundation

/-- What an event of the main agent means for the turn. -/
inductive Speech
  | silent
  | card
  | delta (kind : TurnPartKind)
  | summary
  | final
  deriving DecidableEq

def speech (event : RuntimeEventEnvelope) : Speech :=
  if event.eventType ∈ partBreakingEventTypes then
    if TurnPartsProjection.isVisible event then .card else .silent
  else if event.eventType = "model_delta" then
    if payloadText event = "" then .silent else .delta .text
  else if event.eventType = "reasoning_summary_delta" then
    if payloadText event = "" then .silent else .delta .reasoning
  else if event.eventType = "reasoning_summary" then .summary
  else if event.eventType = "final_response" then .final
  else .silent

/-- The event that replaces a span of a kind. -/
def replacing : TurnPartKind → Speech
  | .text => .final
  | .reasoning => .summary

def replacementText : TurnPartKind → RuntimeEventEnvelope → String
  | .text => finalText
  | .reasoning => reasoningSummaryText

/-- Prose of one kind as it streams. -/
structure Passage where
  kind : TurnPartKind
  opener : RuntimeEventEnvelope
  deltas : List RuntimeEventEnvelope

def Passage.text (p : Passage) : String := String.join (p.deltas.map payloadText)

/-- A passage with the event that replaced its text. -/
structure Span extends Passage where
  replacement : Option RuntimeEventEnvelope

def Span.text (s : Span) : String :=
  match s.replacement with
  | some event => replacementText s.kind event
  | none => s.toPassage.text

/-- A span that one event brought whole. -/
def Span.whole (kind : TurnPartKind) (event : RuntimeEventEnvelope) : Span :=
  ⟨⟨kind, event, []⟩, some event⟩

structure Turn where
  settled : List Span
  opened : Option Passage
  summaries : List Span
  finalized : Bool
  cardSinceProse : Bool

namespace Turn

def start : Turn := ⟨[], none, [], false, false⟩

def spans (t : Turn) : List Span :=
  t.settled ++ (t.opened.map fun p => ⟨p, none⟩).toList ++ t.summaries

def close (t : Turn) : Turn := { t with settled := t.spans, opened := none, summaries := [] }

def appendDelta (t : Turn) (kind : TurnPartKind) (event : RuntimeEventEnvelope) : Turn :=
  match t.opened with
  | some p =>
      if p.kind = kind then { t with opened := some { p with deltas := p.deltas ++ [event] } }
      else { t.close with opened := some ⟨kind, event, [event]⟩ }
  | none => { t.close with opened := some ⟨kind, event, [event]⟩ }

def summarize (t : Turn) (event : RuntimeEventEnvelope) : Turn :=
  if t.opened.map Passage.kind = some .reasoning then
    { t with
      settled := t.settled ++ (t.opened.map fun p =>
        ⟨p, if reasoningSummaryText event = "" then none else some event⟩).toList ++ t.summaries
      opened := none
      summaries := [] }
  else if reasoningSummaryText event = "" then t
  else { t with summaries := t.summaries ++ [.whole .reasoning event] }

/-- The last span, when it is text that no card follows. -/
def tail (t : Turn) : Option Span :=
  if t.cardSinceProse then none else t.settled.getLast?.filter fun s => s.kind = .text

theorem tail_eq_some_iff {t : Turn} {last : Span} :
    t.tail = some last ↔ t.cardSinceProse = false ∧ t.settled.getLast? = some last ∧
      last.kind = .text := by
  unfold tail
  cases t.cardSinceProse <;> simp [Option.filter_eq_some_iff]

def settle (t : Turn) (event : RuntimeEventEnvelope) : Turn :=
  if finalText event = "" then t
  else
    match t.tail with
    | some last =>
        { t with settled := t.settled.dropLast ++ [{ last with replacement := some event }] }
    | none => { t with settled := t.settled ++ [.whole .text event] }

@[simp] theorem appendDelta_finalized (t : Turn) (kind : TurnPartKind)
    (event : RuntimeEventEnvelope) : (t.appendDelta kind event).finalized = t.finalized := by
  unfold appendDelta
  split
  · split <;> rfl
  · rfl

@[simp] theorem summarize_flags (t : Turn) (event : RuntimeEventEnvelope) :
    (t.summarize event).finalized = t.finalized ∧
      (t.summarize event).cardSinceProse = t.cardSinceProse := by
  unfold summarize
  split
  · exact ⟨rfl, rfl⟩
  · split <;> exact ⟨rfl, rfl⟩

@[simp] theorem settle_flags (t : Turn) (event : RuntimeEventEnvelope) :
    (t.settle event).finalized = t.finalized ∧
      (t.settle event).cardSinceProse = t.cardSinceProse := by
  unfold settle
  split
  · exact ⟨rfl, rfl⟩
  · split <;> exact ⟨rfl, rfl⟩

def step (t : Turn) (event : RuntimeEventEnvelope) : Turn :=
  match speech event with
  | .silent => t
  | .card => { t.close with cardSinceProse := true }
  | .delta kind => { t.appendDelta kind event with cardSinceProse := false }
  | .summary => t.summarize event
  | .final => { t.close with finalized := true }.settle event

end Turn

/-- The events of the main agent, each once. -/
def unseen : List String → List RuntimeEventEnvelope → List RuntimeEventEnvelope
  | _, [] => []
  | seen, event :: rest =>
      if event.subagentId.isSome ∨ event.eventId ∈ seen then unseen seen rest
      else event :: unseen (event.eventId :: seen) rest

def mainEvents (events : List RuntimeEventEnvelope) : List RuntimeEventEnvelope :=
  unseen [] (TurnPartsProjection.ordered events)

def turnOf (events : List RuntimeEventEnvelope) : Turn :=
  (mainEvents events).foldl Turn.step .start

/-! ### Drafts that mirror a turn -/

/-- What a draft and a span have in common. -/
structure Outline where
  kind : TurnPartKind
  text : String
  seq : Int
  closed : Bool

def DraftPart.outline (d : DraftPart) : Outline := ⟨d.kind, d.text, d.seq, d.closed⟩

def Span.outline (s : Span) : Outline := ⟨s.kind, s.text, s.opener.sequenceNo, true⟩

def Passage.outline (p : Passage) : Outline := ⟨p.kind, p.text, p.opener.sequenceNo, false⟩

def Turn.outline (t : Turn) : List Outline :=
  t.settled.map Span.outline ++ (t.opened.map Passage.outline).toList ++
    t.summaries.map Span.outline

structure Mirrors (d : Drafts) (t : Turn) : Prop where
  parts : d.parts.map DraftPart.outline = t.outline
  openIndex : d.openIndex = t.opened.map fun _ => t.settled.length

theorem map_modify {α β : Type*} {g : α → β} {f : α → α} {f' : β → β} (h : ∀ x, g (f x) = f' (g x))
    (l : List α) (i : Nat) : (l.modify i f).map g = (l.map g).modify i f' := by
  induction l generalizing i with
  | nil => simp
  | cons x l ih =>
      cases i with
      | zero => simp [h]
      | succ i => simp [ih]

theorem modify_length_append {α : Type*} (f : α → α) (l : List α) (x : α) (r : List α) :
    (l ++ x :: r).modify l.length f = l ++ f x :: r := by
  induction l with
  | nil => rfl
  | cons y l ih => simp [ih]

namespace Mirrors

variable {d : Drafts} {t : Turn}

theorem start : Mirrors .start .start := ⟨rfl, rfl⟩

variable (h : Mirrors d t)
include h

theorem length : d.parts.length = t.spans.length := by
  have hlength := congrArg List.length h.parts
  cases hopened : t.opened <;> simpa [Turn.outline, Turn.spans, hopened] using hlength

theorem openKind : d.openKind = t.opened.map Passage.kind := by
  unfold Drafts.openKind
  rw [h.openIndex]
  cases hopened : t.opened with
  | none => rfl
  | some p =>
      have hparts := congrArg (·[t.settled.length]?) h.parts
      simp only [Turn.outline, hopened, List.getElem?_map] at hparts
      rw [List.getElem?_append_left (by simp), List.getElem?_append_right (by simp)] at hparts
      simp only [Option.map_some, Option.toList_some, List.length_map, Nat.sub_self,
        List.getElem?_cons_zero] at hparts
      obtain ⟨draft, hdraft, houtline⟩ := Option.map_eq_some_iff.mp hparts
      simp only [Option.map_some, Option.bind_some, hdraft]
      exact congrArg (fun o => some o.kind) houtline

theorem edit {p : Passage} (hopened : t.opened = some p) (change : DraftPart → DraftPart)
    (change' : Outline → Outline) (hchange : ∀ x, (change x).outline = change' x.outline) :
    (d.edit change).parts.map DraftPart.outline =
      t.settled.map Span.outline ++ change' p.outline :: t.summaries.map Span.outline := by
  unfold Drafts.edit
  rw [h.openIndex, hopened]
  simp only [Option.map_some]
  rw [map_modify hchange, h.parts, Turn.outline, hopened]
  have hmodify := modify_length_append change' (t.settled.map Span.outline) p.outline
    (t.summaries.map Span.outline)
  rw [List.length_map] at hmodify
  simpa using hmodify

theorem closeOpen : Mirrors d.closeOpen t.close := by
  cases hopened : t.opened with
  | none =>
      have hindex : d.openIndex = none := by rw [h.openIndex, hopened]; rfl
      refine ⟨?_, ?_⟩
      · simp only [Drafts.closeOpen, hindex, h.parts]
        simp [Turn.outline, Turn.close, Turn.spans, hopened]
      · simp [Drafts.closeOpen, hindex, Turn.close]
  | some p =>
      have hedit := h.edit hopened (fun draft => { draft with closed := true })
        (fun o => { o with closed := true }) fun _ => rfl
      unfold Drafts.edit at hedit
      have hindex : d.openIndex = some t.settled.length := by rw [h.openIndex, hopened]; rfl
      rw [hindex] at hedit
      refine ⟨?_, ?_⟩
      · simp only [Drafts.closeOpen, hindex]
        rw [hedit]
        simp [Turn.outline, Turn.close, Turn.spans, hopened, Span.outline, Passage.outline,
          Span.text]
      · simp [Drafts.closeOpen, hindex, Turn.close]

theorem push {draft : DraftPart} {span : Span} (houtline : draft.outline = span.outline) :
    Mirrors (d.push draft) { t with summaries := t.summaries ++ [span] } := by
  refine ⟨?_, h.openIndex⟩
  simp only [Drafts.push, List.map_append, h.parts, List.map_cons, List.map_nil, houtline]
  simp [Turn.outline]

theorem open_new (kind : TurnPartKind) (event : RuntimeEventEnvelope) (at? : Option Int) :
    Mirrors { d.closeOpen.push ⟨kind, payloadText event, event.sequenceNo, at?, at?, false⟩ with
      openIndex := some d.closeOpen.parts.length }
      { t.close with opened := some ⟨kind, event, [event]⟩ } := by
  refine ⟨?_, ?_⟩
  · simp only [Drafts.push, List.map_append, h.closeOpen.parts]
    simp [Turn.outline, Turn.close, DraftPart.outline, Passage.outline, Passage.text, String.join]
  · rw [h.closeOpen.length]
    simp [Turn.close, Turn.spans]

theorem appendDelta (kind : TurnPartKind) (event : RuntimeEventEnvelope) (at? : Option Int) :
    Mirrors (d.appendDelta kind (payloadText event) event at?) (t.appendDelta kind event) := by
  unfold Drafts.appendDelta Turn.appendDelta
  rw [h.openKind]
  cases hopened : t.opened with
  | none => exact h.open_new kind event at?
  | some p =>
      by_cases hkind : p.kind = kind
      · have hedit := h.edit hopened
          (fun draft => { draft with
            text := draft.text ++ payloadText event
            updatedAtMs := if at?.isSome then at? else draft.updatedAtMs })
          (fun o => { o with text := o.text ++ payloadText event }) fun _ => rfl
        simp only [Option.map_some, hkind, ne_eq, not_true_eq_false, if_false, if_true]
        refine ⟨?_, ?_⟩
        · rw [hedit]
          simp [Turn.outline, Passage.outline, Passage.text, String.join_append, hkind]
        · have hindex := h.openIndex
          rw [hopened] at hindex
          unfold Drafts.edit
          rw [hindex]
          rfl
      · simp only [Option.map_some, Option.some.injEq, hkind, ne_eq, not_false_eq_true, if_true,
          if_false]
        exact h.open_new kind event at?

/-- A summary that replaces the text of the open reasoning. -/
theorem replace_open {p : Passage} (hopened : t.opened = some p) (hkind : p.kind = .reasoning)
    (event : RuntimeEventEnvelope) (updated : DraftPart → Option Int) :
    Mirrors (d.edit fun draft => { draft with
        text := if reasoningSummaryText event ≠ "" then reasoningSummaryText event else draft.text
        updatedAtMs := updated draft }).closeOpen (t.summarize event) := by
  have hindex : d.openIndex = some t.settled.length := by rw [h.openIndex, hopened]; rfl
  let change := fun draft : DraftPart => { draft with
    text := if reasoningSummaryText event ≠ "" then reasoningSummaryText event else draft.text
    updatedAtMs := updated draft }
  have hedit := h.edit hopened (fun draft => { change draft with closed := true })
    (fun o => { o with
      text := if reasoningSummaryText event ≠ "" then reasoningSummaryText event else o.text
      closed := true }) fun _ => rfl
  have hclose : (d.edit change).closeOpen =
      ⟨(d.edit fun draft => { change draft with closed := true }).parts, none⟩ := by
    unfold Drafts.edit Drafts.closeOpen
    rw [hindex]
    simp only [List.modify_modify_eq]
    rfl
  change Mirrors (d.edit change).closeOpen _
  rw [hclose]
  refine ⟨?_, ?_⟩
  · rw [hedit]
    unfold Turn.summarize
    rw [hopened, Option.map_some, if_pos (congrArg some hkind)]
    by_cases htext : reasoningSummaryText event = ""
    · simp [Turn.outline, Passage.outline, Span.outline, Span.text, htext]
    · simp [Turn.outline, Passage.outline, Span.outline, Span.text, htext, hkind, replacementText]
  · unfold Turn.summarize
    rw [hopened, Option.map_some, if_pos (congrArg some hkind)]
    rfl

theorem summarize_of_closed (hkind : d.openKind ≠ some .reasoning) (event : RuntimeEventEnvelope)
    (at? : Option Int) :
    Mirrors (if reasoningSummaryText event = "" then d
      else d.push ⟨.reasoning, reasoningSummaryText event, event.sequenceNo, at?, at?, true⟩)
      (t.summarize event) := by
  unfold Turn.summarize
  rw [h.openKind] at hkind
  rw [if_neg hkind]
  split
  · exact h
  · exact h.push rfl

omit h in
/-- The last text draft is the last draft exactly when the last draft is text. -/
theorem lastTextIndex_eq (d : Drafts) (x : DraftPart) (rest : List DraftPart)
    (hparts : d.parts = rest ++ [x]) :
    (∃ i, d.lastTextIndex = some i ∧ i + 1 = d.parts.length) ↔ x.kind = .text := by
  unfold Drafts.lastTextIndex
  rw [hparts, List.length_append, List.length_singleton, List.range_succ, List.reverse_append]
  simp only [List.reverse_cons, List.reverse_nil, List.nil_append, List.cons_append,
    List.find?_cons, List.getElem?_concat_length, Option.any_some]
  by_cases hx : x.kind = .text
  · simp [hx]
  · simp only [hx, decide_false, iff_false, not_exists, not_and]
    intro i hi hlast
    have hmem := List.mem_of_find?_eq_some hi
    rw [List.mem_reverse, List.mem_range] at hmem
    omega

omit h in
theorem last_draft {parts : List DraftPart} {settled rest : List Span} {last : Span}
    (hparts : parts.map DraftPart.outline = settled.map Span.outline)
    (hsettled : settled = rest ++ [last]) :
    ∃ rest' x, parts = rest' ++ [x] ∧ rest'.map DraftPart.outline = rest.map Span.outline ∧
      x.outline = last.outline := by
  rw [hsettled, List.map_append] at hparts
  obtain ⟨rest', tail, hsplit, hrest, htail⟩ := List.map_eq_append_iff.mp hparts
  obtain ⟨x, rfl, hx⟩ := List.map_eq_singleton_iff.mp htail
  exact ⟨rest', x, hsplit, hrest, hx⟩

/-- How the text of a final response is written into the drafts. -/
theorem settle (hopened : t.opened = none) (hsummaries : t.summaries = [])
    (event : RuntimeEventEnvelope) (at? : Option Int) (d' : Drafts)
    (hreplace : finalText event ≠ "" → t.cardSinceProse = false → ∀ i,
      d.lastTextIndex = some i → i + 1 = d.parts.length →
        d' = { d with parts := d.parts.modify i fun draft =>
          { draft with text := finalText event } })
    (hpush : finalText event ≠ "" → (t.cardSinceProse = true ∨ ∀ i,
      d.lastTextIndex = some i → i + 1 ≠ d.parts.length) →
        d' = d.push ⟨.text, finalText event, event.sequenceNo, at?, at?, true⟩)
    (hsame : finalText event = "" → d' = d) : Mirrors d' (t.settle event) := by
  unfold Turn.settle
  by_cases htext : finalText event = ""
  · rw [if_pos htext, hsame htext]
    exact h
  rw [if_neg htext]
  have hindex : d.openIndex = none := by rw [h.openIndex, hopened]; rfl
  have hparts : d.parts.map DraftPart.outline = t.settled.map Span.outline := by
    rw [h.parts]
    simp [Turn.outline, hopened, hsummaries]
  have hpushed : (t.cardSinceProse = true ∨ ∀ i, d.lastTextIndex = some i →
      i + 1 ≠ d.parts.length) →
      Mirrors d' { t with settled := t.settled ++ [.whole .text event] } := by
    intro hcase
    rw [hpush htext hcase]
    refine ⟨?_, by simpa [Drafts.push, hopened] using hindex⟩
    simp only [Drafts.push, List.map_append, hparts]
    simp [Turn.outline, hopened, hsummaries, DraftPart.outline, Span.outline, Span.whole,
      Span.text, replacementText]
  cases htail : t.tail with
  | none =>
      apply hpushed
      by_contra hnot
      obtain ⟨hcard, hlast⟩ := not_or.mp hnot
      simp only [ne_eq, not_forall, not_not] at hlast
      obtain ⟨i, hi, hlength⟩ := hlast
      rcases List.eq_nil_or_concat t.settled with hnil | ⟨rest, last, hsettled⟩
      · have hempty : d.parts = [] := by
          rw [hnil] at hparts
          exact List.map_eq_nil_iff.mp hparts
        rw [hempty] at hlength
        simp at hlength
      · rw [List.concat_eq_append] at hsettled
        obtain ⟨rest', x, hsplit, _, hx⟩ := last_draft hparts hsettled
        have hkind : last.kind = .text :=
          (congrArg Outline.kind hx).symm.trans ((lastTextIndex_eq d x rest' hsplit).mp
            ⟨i, hi, hlength⟩)
        have hsome : t.tail = some last := Turn.tail_eq_some_iff.mpr
          ⟨Bool.eq_false_iff.mpr hcard, by rw [hsettled, List.getLast?_concat], hkind⟩
        rw [htail] at hsome
        cases hsome
  | some last =>
      obtain ⟨hcard, hlast, htextual⟩ := Turn.tail_eq_some_iff.mp htail
      obtain ⟨rest, hsettled⟩ := List.getLast?_eq_some_iff.mp hlast
      obtain ⟨rest', x, hsplit, hrest, hx⟩ := last_draft hparts hsettled
      have hkind : x.kind = last.kind := congrArg Outline.kind hx
      have hseq : x.seq = last.opener.sequenceNo := congrArg Outline.seq hx
      have hclosed : x.closed = true := congrArg Outline.closed hx
      obtain ⟨i, hi, hlength⟩ := (lastTextIndex_eq d x rest' hsplit).mpr (hkind.trans htextual)
      rw [hreplace htext hcard i hi hlength]
      have hpos : i = rest'.length := by
        rw [hsplit, List.length_append, List.length_singleton] at hlength
        omega
      refine ⟨?_, by simpa [hopened] using hindex⟩
      have hmodify := modify_length_append
        (fun draft : DraftPart => { draft with text := finalText event }) rest' x []
      simp only [hsplit, hpos, hmodify, List.map_append, hrest, hsettled, List.dropLast_concat]
      simp [Turn.outline, hopened, hsummaries, DraftPart.outline, Span.outline, Span.text,
        replacementText, htextual, hkind, hseq, hclosed]

theorem flagged (finalized cardSinceProse : Bool) :
    Mirrors d { t with finalized := finalized, cardSinceProse := cardSinceProse } :=
  ⟨h.parts, h.openIndex⟩

end Mirrors

/-- The variables of a fold are those of a turn. -/
structure Follows (d : Drafts) (finalized cardSinceProse : Bool) (t : Turn) : Prop
    extends Mirrors d t where
  finalized : finalized = t.finalized
  cardSinceProse : cardSinceProse = t.cardSinceProse

namespace TurnPartsProjection

variable {t : Turn}

theorem follows_reconcileFinal {clock : String → Option Int} {d : Drafts} (h : Mirrors d t)
    (event : RuntimeEventEnvelope) :
    Mirrors (reconcileFinal clock d.closeOpen event !t.cardSinceProse)
      ({ t.close with finalized := true }.settle event) := by
  have hclosed : Mirrors d.closeOpen { t.close with finalized := true } :=
    h.closeOpen.flagged true t.close.cardSinceProse
  refine hclosed.settle rfl rfl event (clock event.createdAt) _ ?_ ?_ ?_
  · intro htext hcard i hi hlength
    have hcard' : t.cardSinceProse = false := hcard
    simp [reconcileFinal, htext, hi, hlength, hcard']
  · intro htext hcase
    unfold reconcileFinal
    rw [if_neg htext]
    split
    · next i hi =>
        rw [if_neg]
        rintro ⟨hmay, hlength⟩
        rcases hcase with hcard | hlast
        · have hcard' : t.cardSinceProse = true := hcard
          rw [hcard'] at hmay
          cases hmay
        · exact hlast i hi hlength
    · rfl
  · intro htext
    simp [reconcileFinal, htext]

/-- An event of the main agent that was not seen before moves the fold as it moves the turn. -/
theorem follows_foldEvent (clock : String → Option Int) {s : FoldState}
    (h : Follows s.drafts s.finalized s.cardSinceProse t) {event : RuntimeEventEnvelope}
    (hmain : event.subagentId.isSome = false) (hnew : event.eventId ∉ s.seen) :
    (foldEvent clock s event).seen = event.eventId :: s.seen ∧
      Follows (foldEvent clock s event).drafts (foldEvent clock s event).finalized
        (foldEvent clock s event).cardSinceProse (t.step event) := by
  unfold foldEvent Turn.step speech
  rw [if_neg (by simp [hmain]), if_neg hnew]
  by_cases hbreaking : event.eventType ∈ partBreakingEventTypes
  · rw [if_pos hbreaking]
    by_cases hvisible : isVisible event
    · rw [if_pos ⟨hbreaking, hvisible⟩, if_pos hvisible]
      exact ⟨rfl, h.toMirrors.closeOpen.flagged t.finalized true, h.finalized, rfl⟩
    · have hothers : event.eventType ≠ "model_delta" ∧
          event.eventType ≠ "reasoning_summary_delta" ∧ event.eventType ≠ "reasoning_summary" ∧
          event.eventType ≠ "final_response" := by
        refine ⟨?_, ?_, ?_, ?_⟩ <;> · intro htype; rw [htype] at hbreaking; revert hbreaking; decide
      rw [if_neg (fun hboth => hvisible hboth.2), if_neg hothers.1, if_neg hothers.2.1,
        if_neg hothers.2.2.1, if_neg hothers.2.2.2, if_neg hvisible]
      exact ⟨rfl, h⟩
  rw [if_neg (fun hboth => hbreaking hboth.1), if_neg hbreaking]
  split
  · split
    · exact ⟨rfl, h⟩
    · refine ⟨rfl, (h.toMirrors.appendDelta .text event _).flagged
        (t.appendDelta .text event).finalized false, ?_, rfl⟩
      simp [h.finalized]
  split
  · split
    · exact ⟨rfl, h⟩
    · refine ⟨rfl, (h.toMirrors.appendDelta .reasoning event _).flagged
        (t.appendDelta .reasoning event).finalized false, ?_, rfl⟩
      simp [h.finalized]
  split
  · refine ⟨rfl, ?_, ?_, ?_⟩
    · unfold applyReasoningCap
      by_cases hkind : s.drafts.openKind = some .reasoning
      · rw [if_pos hkind]
        rw [h.toMirrors.openKind] at hkind
        obtain ⟨p, hopened, hreasoning⟩ := Option.map_eq_some_iff.mp hkind
        exact h.toMirrors.replace_open hopened hreasoning event _
      · rw [if_neg hkind]
        exact h.toMirrors.summarize_of_closed hkind event _
    · simp [h.finalized]
    · simp [h.cardSinceProse]
  split
  · refine ⟨rfl, ?_, ?_, ?_⟩
    · rw [h.cardSinceProse]
      exact follows_reconcileFinal h.toMirrors event
    · simp
    · simp [h.cardSinceProse, Turn.close]
  · exact ⟨rfl, h⟩

theorem follows_foldl (clock : String → Option Int) (events : List RuntimeEventEnvelope)
    {s : FoldState} (h : Follows s.drafts s.finalized s.cardSinceProse t) :
    let s' := events.foldl (foldEvent clock) s
    Follows s'.drafts s'.finalized s'.cardSinceProse ((unseen s.seen events).foldl Turn.step t) := by
  induction events generalizing s t with
  | nil => exact h
  | cons event rest ih =>
      rw [unseen, List.foldl_cons]
      split
      · next hskip =>
          have hsame : foldEvent clock s event = s := by
            unfold foldEvent
            rcases hskip with hsub | hseen
            · rw [if_pos hsub]
            · rw [if_pos hseen, ite_self]
          rw [hsame]
          exact ih h
      · next hkeep =>
          obtain ⟨hmain, hnew⟩ := not_or.mp hkeep
          obtain ⟨hseen, hnext⟩ := follows_foldEvent clock h
            (Bool.eq_false_iff.mpr hmain) hnew
          rw [List.foldl_cons, ← hseen]
          exact ih hnext

end TurnPartsProjection

namespace ChatState

@[simp] theorem began_fields (s : ChatState) (event : RuntimeEventEnvelope) :
    (s.began event).drafts = s.drafts ∧ (s.began event).finalized = s.finalized ∧
      (s.began event).cardSinceProse = s.cardSinceProse ∧ (s.began event).seen = s.seen := by
  unfold began
  split <;> exact ⟨rfl, rfl, rfl, rfl⟩

/-- The client's variables are those of a turn, and it remembers the events it saw. -/
def At (s : ChatState) (seen : List String) (t : Turn) : Prop :=
  s.seen = seen ∧ Follows s.drafts s.finalized s.cardSinceProse t

variable {s : ChatState} {seen : List String} {t : Turn}

variable (parseMs : String → Option Int)

theorem at_applyDelta (h : s.At seen t) (kind : TurnPartKind) (event : RuntimeEventEnvelope) :
    (s.applyDelta parseMs kind event).At seen (if payloadText event = "" then t
      else { t.appendDelta kind event with cardSinceProse := false }) := by
  by_cases htext : payloadText event = ""
  · simp only [applyDelta, htext, if_true]
    exact h
  · obtain ⟨hdrafts, _, _, hseen⟩ := began_fields s event
    simp only [applyDelta, htext, if_false]
    refine ⟨hseen.trans h.1, ?_, ?_, rfl⟩
    · simp only [hdrafts]
      exact (h.2.toMirrors.appendDelta kind event _).flagged
        (t.appendDelta kind event).finalized false
    · simp [h.2.finalized]

theorem at_applyReasoningSummary {parseMs : String → Option Int} (h : s.At seen t)
    (event : RuntimeEventEnvelope) :
    (s.applyReasoningSummary parseMs event).At seen (t.summarize event) := by
  obtain ⟨hseen, hfollows⟩ := h
  obtain ⟨hfinalized, hcard⟩ := t.summarize_flags event
  unfold applyReasoningSummary
  by_cases hkind : s.drafts.openKind = some .reasoning
  · rw [if_pos hkind]
    refine ⟨hseen, ?_, hfollows.finalized.trans hfinalized.symm,
      hfollows.cardSinceProse.trans hcard.symm⟩
    rw [hfollows.toMirrors.openKind] at hkind
    obtain ⟨p, hopened, hreasoning⟩ := Option.map_eq_some_iff.mp hkind
    exact hfollows.toMirrors.replace_open hopened hreasoning event _
  · rw [if_neg hkind]
    have hmirrors := hfollows.toMirrors.summarize_of_closed hkind event (parseMs event.createdAt)
    split
    · next htext =>
        rw [if_pos htext] at hmirrors
        exact ⟨hseen, hmirrors, hfollows.finalized.trans hfinalized.symm,
          hfollows.cardSinceProse.trans hcard.symm⟩
    · next htext =>
        rw [if_neg htext] at hmirrors
        obtain ⟨hdrafts, _, _, hseen'⟩ := began_fields s event
        refine ⟨hseen'.trans hseen, ?_, ?_, ?_⟩
        · simp only [hdrafts]
          exact hmirrors
        · simp [hfollows.finalized]
        · simp [hfollows.cardSinceProse]

theorem at_applyFinalResponse {parseMs : String → Option Int} (h : s.At seen t)
    (event : RuntimeEventEnvelope) :
    (s.applyFinalResponse parseMs event).At seen
      ({ t.close with finalized := true }.settle event) := by
  obtain ⟨hseen, hfollows⟩ := h
  have hdrafts : (s.applyFinalResponse parseMs event).drafts =
      TurnPartsProjection.reconcileFinal parseMs s.drafts.closeOpen event !t.cardSinceProse := by
    unfold applyFinalResponse TurnPartsProjection.reconcileFinal
    rw [← hfollows.cardSinceProse]
    simp only
    split
    · rfl
    · split
      · split <;> rfl
      · rfl
  have hfields : (s.applyFinalResponse parseMs event).finalized = true ∧
      (s.applyFinalResponse parseMs event).cardSinceProse = s.cardSinceProse ∧
      (s.applyFinalResponse parseMs event).seen = s.seen := by
    unfold applyFinalResponse
    simp only
    split
    · exact ⟨rfl, rfl, rfl⟩
    · split
      · split <;> exact ⟨rfl, rfl, rfl⟩
      · exact ⟨rfl, rfl, rfl⟩
  refine ⟨hfields.2.2.trans hseen, ?_, ?_, ?_⟩
  · rw [hdrafts]
    exact TurnPartsProjection.follows_reconcileFinal hfollows.toMirrors event
  · simp [hfields.1]
  · simp [hfields.2.1, hfollows.cardSinceProse, Turn.close]

theorem at_applyEvent (h : s.At s.seen t) {event : RuntimeEventEnvelope}
    (hmain : event.subagentId.isSome = false) (hnew : event.eventId ∉ s.seen) :
    (s.applyEvent parseMs event).At (event.eventId :: s.seen) (t.step event) := by
  let s' := { s with
    seen := event.eventId :: s.seen
    runId := some (s.runId.getD event.runId) }
  have hat : s'.At (event.eventId :: s.seen) t := ⟨rfl, h.2⟩
  have hnone : event.subagentId = none := Option.not_isSome_iff_eq_none.mp (by simp [hmain])
  unfold applyEvent Turn.step speech
  rw [if_neg (by simp [hnone]), if_neg (by simpa using hnew)]
  by_cases hbreaking : event.eventType ∈ partBreakingEventTypes
  · rw [if_pos (List.contains_iff_mem.mpr hbreaking), if_pos hbreaking]
    by_cases hhidden : event.visibility = some "internal" ∨ event.visibility = some "audit"
    · have hvisible : TurnPartsProjection.isVisible event = false := by
        rcases hhidden with hv | hv <;> simp [TurnPartsProjection.isVisible, hv]
      simp only [if_pos hhidden, hvisible, Bool.false_eq_true, if_false]
      exact hat
    · have hvisible : TurnPartsProjection.isVisible event = true := by
        simpa [TurnPartsProjection.isVisible, not_or] using hhidden
      simp only [if_neg hhidden, hvisible, if_true]
      exact ⟨rfl, h.2.toMirrors.closeOpen.flagged t.finalized true, h.2.finalized, rfl⟩
  rw [if_neg (fun hc => hbreaking (List.contains_iff_mem.mp hc)), if_neg hbreaking]
  split
  · next htype =>
      simp only [htype, if_true]
      have hdelta := at_applyDelta parseMs hat .text event
      by_cases htext : payloadText event = "" <;> simpa only [htext, if_true, if_false] using hdelta
  · next htype =>
      simp only [htype, String.reduceEq, if_true, if_false]
      have hdelta := at_applyDelta parseMs hat .reasoning event
      by_cases htext : payloadText event = "" <;> simpa only [htext, if_true, if_false] using hdelta
  · next htype =>
      simp only [htype, String.reduceEq, if_true, if_false]
      exact at_applyReasoningSummary hat event
  · next htype =>
      simp only [htype, String.reduceEq, if_true, if_false]
      exact at_applyFinalResponse hat event
  · next hdelta hreasoning hsummary hfinal =>
      rw [if_neg hdelta, if_neg hreasoning, if_neg hsummary, if_neg hfinal]
      exact hat

theorem at_foldl (events : List RuntimeEventEnvelope) (h : s.At s.seen t) :
    ∃ seen, (events.foldl (applyEvent parseMs) s).At seen
      ((unseen s.seen events).foldl Turn.step t) := by
  induction events generalizing s t with
  | nil => exact ⟨_, h⟩
  | cons event rest ih =>
      rw [unseen, List.foldl_cons]
      split
      · next hskip =>
          have hsame : applyEvent parseMs s event = s := by
            unfold applyEvent
            rcases hskip with hsub | hseen
            · rw [if_pos (Option.isSome_iff_ne_none.mp hsub)]
            · rw [if_pos (List.contains_iff_mem.mpr hseen), ite_self]
          rw [hsame]
          exact ih h
      · next hkeep =>
          obtain ⟨hmain, hnew⟩ := not_or.mp hkeep
          have hnext := at_applyEvent parseMs h (Bool.eq_false_iff.mpr hmain) hnew
          rw [List.foldl_cons, ← hnext.1]
          rw [← hnext.1] at hnext
          exact ih hnext

end ChatState

/-! ### The parts of a turn -/

/-- What a part shows apart from its times. -/
abbrev PartView := TurnPartKind × String × Int × TurnPartStatus

def TurnPart.view (p : TurnPart) : PartView := (p.kind, p.text, p.seq, p.status)

def Outline.view (finalized : Bool) (o : Outline) : PartView :=
  (o.kind, o.text, o.seq, if o.closed ∨ finalized then .complete else .running)

def Turn.view (t : Turn) : List PartView :=
  (t.outline.filter fun o => o.text ≠ "").map (Outline.view t.finalized)

theorem Follows.view {d : Drafts} {finalized cardSinceProse : Bool} {t : Turn}
    (h : Follows d finalized cardSinceProse t) :
    ((d.parts.filter fun draft => draft.text ≠ "").map fun draft =>
      (⟨draft.kind, draft.text, draft.seq,
        if draft.closed ∨ finalized then .complete else .running, draft.startedAtMs,
        draft.updatedAtMs⟩ : TurnPart)).map TurnPart.view = t.view := by
  rw [Turn.view, ← h.parts, ← h.finalized, List.filter_map, List.map_map, List.map_map]
  rfl

theorem fold_view (createdAtMs : String → Option Int) (events : List RuntimeEventEnvelope) :
    (TurnPartsProjection.fold createdAtMs events).map TurnPart.view = (turnOf events).view :=
  (TurnPartsProjection.follows_foldl createdAtMs (TurnPartsProjection.ordered events)
    (s := ⟨.start, false, [], false⟩) (t := .start) ⟨.start, rfl, rfl⟩).view

theorem pairwise_of_isSortedBySequence {events : List RuntimeEventEnvelope}
    (h : isSortedBySequence events = true) :
    events.Pairwise fun a b => a.sequenceNo ≤ b.sequenceNo := by
  have : IsTrans _ fun a b : RuntimeEventEnvelope => a.sequenceNo ≤ b.sequenceNo :=
    ⟨fun _ _ _ => le_trans⟩
  rw [← List.isChain_iff_pairwise]
  fun_induction isSortedBySequence events with
  | case1 a b rest ih =>
      obtain ⟨hle, hrest⟩ := Bool.and_eq_true_iff.mp h
      exact .cons_cons (of_decide_eq_true hle) (ih hrest)
  | case2 events hshort =>
      match events with
      | [] => exact .nil
      | [a] => exact .singleton a
      | a :: b :: rest => exact (hshort a b rest rfl).elim

theorem projectChatMessages_view (parseMs : String → Option Int)
    (events : List RuntimeEventEnvelope) :
    ((projectChatMessages parseMs events).flatMap TcChatMessage.parts).map TurnPart.view =
      (turnOf events).view := by
  have hordered : (if isSortedBySequence events then events
      else events.insertionSort fun a b => a.sequenceNo ≤ b.sequenceNo) =
      TurnPartsProjection.ordered events := by
    split
    · next hsorted => exact (pairwise_of_isSortedBySequence hsorted).insertionSort_eq.symm
    · rfl
  obtain ⟨_, _, hfollows⟩ := ChatState.at_foldl parseMs
    (TurnPartsProjection.ordered events) (s := .start) (t := .start) ⟨rfl, ⟨.start, rfl, rfl⟩⟩
  have hview := hfollows.view
  unfold projectChatMessages
  rw [hordered]
  dsimp only
  split
  · next hnone =>
      rw [hnone] at hview
      exact hview
  · rw [List.flatMap_singleton]
    exact hview

end CopilotRuntime.Transcript
