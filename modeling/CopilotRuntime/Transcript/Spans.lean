import CopilotRuntime.Foundation.History
import CopilotRuntime.Transcript.Turns

/-!
# Spans of a turn

Every delta of the main agent stands in one span of the turn, in order, until a summary or a final
response replaces that span. The kinds of the spans tell where the next text goes.

## Implementation notes

What stands before a stretch of a turn is only kept, so the stretch is folded like a turn of its
own.
-/

namespace CopilotRuntime.Transcript

open Foundation

/-! ### The deltas of a turn -/

def isDelta (event : RuntimeEventEnvelope) : Bool :=
  match speech event with
  | .delta _ => true
  | _ => false

/-- A span was replaced by an event that came after all of its deltas. -/
structure Replaced (events : List RuntimeEventEnvelope) (span : Span)
    (event : RuntimeEventEnvelope) : Prop where
  speech : speech event = replacing span.kind
  text : replacementText span.kind event ≠ ""
  later : ∃ earlier rest, events = earlier ++ event :: rest ∧ ∀ d ∈ span.deltas, d ∈ earlier

/-- The spans hold the deltas of the events, each in one place and in order. -/
structure Keeps (events : List RuntimeEventEnvelope) (spans : List Span) : Prop where
  deltas : spans.flatMap (fun s => s.deltas) = events.filter isDelta
  spoken : ∀ s ∈ spans, ∀ d ∈ s.deltas, speech d = .delta s.kind
  unreplaced : ∀ s ∈ spans, s.replacement = none → s.deltas ≠ []
  replaced : ∀ s ∈ spans, ∀ e, s.replacement = some e → Replaced events s e

theorem payloadText_of_delta {event : RuntimeEventEnvelope} {kind : TurnPartKind}
    (h : speech event = .delta kind) : payloadText event ≠ "" := by
  intro hempty
  simp only [speech, hempty, if_true] at h
  repeat' split at h
  all_goals cases h

namespace Keeps

variable {events : List RuntimeEventEnvelope} {spans : List Span}

theorem text_ne (h : Keeps events spans) {s : Span} (hs : s ∈ spans) : s.text ≠ "" := by
  unfold Span.text
  cases hreplacement : s.replacement with
  | some e => exact (h.replaced s hs e hreplacement).text
  | none =>
      have hnonempty := h.unreplaced s hs hreplacement
      intro hempty
      cases hdeltas : s.deltas with
      | nil => exact hnonempty hdeltas
      | cons d rest =>
          apply payloadText_of_delta (h.spoken s hs d (hdeltas ▸ List.mem_cons_self))
          simp only [Passage.text, hdeltas, List.map_cons, String.join_cons] at hempty
          exact (String.append_eq_empty_iff.mp hempty).1

theorem mem_events (h : Keeps events spans) {s : Span} (hs : s ∈ spans)
    {d : RuntimeEventEnvelope} (hd : d ∈ s.deltas) : d ∈ events := by
  have hmem : d ∈ spans.flatMap fun s => s.deltas := List.mem_flatMap.mpr ⟨s, hs, hd⟩
  rw [h.deltas] at hmem
  exact List.mem_of_mem_filter hmem

end Keeps

theorem Replaced.mono {events : List RuntimeEventEnvelope} {s : Span} {e : RuntimeEventEnvelope}
    (h : Replaced events s e) (later : List RuntimeEventEnvelope) :
    Replaced (events ++ later) s e := by
  obtain ⟨hspeech, htext, earlier, rest, hevents, hearlier⟩ := h
  refine ⟨hspeech, htext, earlier, rest ++ later, ?_, hearlier⟩
  rw [hevents, List.append_assoc, List.cons_append]

namespace Keeps

variable {events later : List RuntimeEventEnvelope} {a b old new : List Span}

/-- The spans at one place give way to others, with the deltas that arrived. -/
theorem change (h : Keeps events (a ++ old ++ b))
    (hdeltas : new.flatMap (fun s => s.deltas) ++ b.flatMap (fun s => s.deltas) =
      old.flatMap (fun s => s.deltas) ++ b.flatMap (fun s => s.deltas) ++ later.filter isDelta)
    (hspoken : ∀ s ∈ new, ∀ d ∈ s.deltas, speech d = .delta s.kind)
    (hunreplaced : ∀ s ∈ new, s.replacement = none → s.deltas ≠ [])
    (hreplaced : ∀ s ∈ new, ∀ e, s.replacement = some e → Replaced (events ++ later) s e) :
    Keeps (events ++ later) (a ++ new ++ b) := by
  have hkept : ∀ s ∈ a ++ new ++ b, s ∈ a ++ old ++ b ∨ s ∈ new := by
    intro s hs
    simp only [List.mem_append] at hs ⊢
    tauto
  refine ⟨?_, ?_, ?_, ?_⟩
  · have hold := h.deltas
    rw [List.flatMap_append, List.flatMap_append] at hold ⊢
    rw [List.filter_append, ← hold, List.append_assoc, List.append_assoc, List.append_assoc,
      hdeltas, List.append_assoc]
  · intro s hs
    rcases hkept s hs with hs | hs
    · exact h.spoken s hs
    · exact hspoken s hs
  · intro s hs
    rcases hkept s hs with hs | hs
    · exact h.unreplaced s hs
    · exact hunreplaced s hs
  · intro s hs e he
    rcases hkept s hs with hs | hs
    · exact (h.replaced s hs e he).mono later
    · exact hreplaced s hs e he

variable {event : RuntimeEventEnvelope}

/-- Another event that is no delta leaves the spans as they are. -/
theorem after (h : Keeps events a) (hdelta : isDelta event = false) :
    Keeps (events ++ [event]) a := by
  have hbase : Keeps events (a ++ [] ++ []) := by simpa using h
  have hchange : Keeps (events ++ [event]) (a ++ [] ++ []) :=
    hbase.change (by simp [hdelta]) (by simp) (by simp) (by simp)
  simpa using hchange

theorem push_whole (h : Keeps events a) (kind : TurnPartKind)
    (hspeech : speech event = replacing kind) (htext : replacementText kind event ≠ "") :
    Keeps (events ++ [event]) (a ++ [.whole kind event]) := by
  have hdelta : isDelta event = false := by
    unfold isDelta
    rw [hspeech]
    cases kind <;> rfl
  have hbase : Keeps events (a ++ [] ++ []) := by simpa using h
  have hchange : Keeps (events ++ [event]) (a ++ [.whole kind event] ++ []) := by
    refine hbase.change (by simp [hdelta, Span.whole]) (by simp [Span.whole])
      (by simp [Span.whole]) ?_
    intro s hs e he
    obtain rfl := List.mem_singleton.mp hs
    obtain rfl := Option.some.inj he
    exact ⟨hspeech, htext, events, [], rfl, by simp [Span.whole]⟩
  simpa using hchange

theorem replace {s : Span} (h : Keeps events (a ++ [s] ++ b)) (event : RuntimeEventEnvelope)
    (hspeech : speech event = replacing s.kind) (htext : replacementText s.kind event ≠ "") :
    Keeps (events ++ [event]) (a ++ [{ s with replacement := some event }] ++ b) := by
  have hdelta : isDelta event = false := by
    unfold isDelta
    rw [hspeech]
    cases s.kind <;> rfl
  have hs : s ∈ a ++ [s] ++ b := by simp
  refine change h (by simp [hdelta]) ?_ (by simp) ?_
  · intro x hx
    obtain rfl := List.mem_singleton.mp hx
    exact h.spoken s hs
  · intro x hx e he
    obtain rfl := List.mem_singleton.mp hx
    obtain rfl := Option.some.inj he
    exact ⟨hspeech, htext, events, [], rfl, fun d hd => h.mem_events hs hd⟩

/-- A delta extends the last span that has deltas. -/
theorem extend {p : Passage} (h : Keeps events (a ++ [⟨p, none⟩] ++ b))
    (hb : ∀ s ∈ b, s.deltas = []) (hspeech : speech event = .delta p.kind) :
    Keeps (events ++ [event])
      (a ++ [⟨{ p with deltas := p.deltas ++ [event] }, none⟩] ++ b) := by
  have hnone : b.flatMap (fun s => s.deltas) = [] := List.flatMap_eq_nil_iff.mpr hb
  refine change h ?_ ?_ (by simp) (by simp)
  · simp [hnone, isDelta, hspeech]
  · intro x hx d hd
    obtain rfl := List.mem_singleton.mp hx
    rcases List.mem_append.mp hd with hd | hd
    · exact h.spoken ⟨p, none⟩ (by simp) d hd
    · rw [List.mem_singleton.mp hd]
      exact hspeech

theorem push_delta {kind : TurnPartKind} (h : Keeps events a)
    (hspeech : speech event = .delta kind) :
    Keeps (events ++ [event]) (a ++ [⟨⟨kind, event, [event]⟩, none⟩]) := by
  have hbase : Keeps events (a ++ [] ++ []) := by simpa using h
  have hchange : Keeps (events ++ [event]) (a ++ [⟨⟨kind, event, [event]⟩, none⟩] ++ []) :=
    hbase.change (by simp [isDelta, hspeech]) (by simp [hspeech]) (by simp) (by simp)
  simpa using hchange

end Keeps

/-- A turn keeps the events it was folded from, and its summaries came whole. -/
structure Turn.Kept (events : List RuntimeEventEnvelope) (t : Turn) : Prop where
  keeps : Keeps events t.spans
  summaries : ∀ s ∈ t.summaries, s.deltas = []

namespace Turn.Kept

variable {events : List RuntimeEventEnvelope} {t : Turn}

theorem close_spans (t : Turn) : t.close.spans = t.spans := by simp [close, spans]

theorem step (h : t.Kept events) (event : RuntimeEventEnvelope) :
    (t.step event).Kept (events ++ [event]) := by
  have hclose : t.close.Kept events :=
    ⟨by rw [close_spans]; exact h.keeps, fun s hs => by cases hs⟩
  unfold Turn.step
  cases hspeech : speech event with
  | silent => exact ⟨h.keeps.after (by simp [isDelta, hspeech]), h.summaries⟩
  | card => exact ⟨hclose.keeps.after (by simp [isDelta, hspeech]), hclose.summaries⟩
  | delta kind =>
      have hpushed : Kept (events ++ [event])
          { t.close with opened := some ⟨kind, event, [event]⟩, cardSinceProse := false } := by
        refine ⟨?_, hclose.summaries⟩
        have hpush := hclose.keeps.push_delta hspeech
        simpa [spans, close] using hpush
      simp only
      unfold Turn.appendDelta
      cases hopened : t.opened with
      | none => exact hpushed
      | some p =>
          by_cases hkind : p.kind = kind
          · subst hkind
            simp only [if_true]
            refine ⟨?_, h.summaries⟩
            have hkeeps := h.keeps
            simp only [spans, hopened, Option.map_some, Option.toList_some] at hkeeps
            exact hkeeps.extend h.summaries hspeech
          · simp only [hkind, if_false]
            exact hpushed
  | summary =>
      simp only
      unfold Turn.summarize
      have hdelta : isDelta event = false := by simp [isDelta, hspeech]
      by_cases hkind : t.opened.map Passage.kind = some .reasoning
      · rw [if_pos hkind]
        obtain ⟨p, hopened, hreasoning⟩ := Option.map_eq_some_iff.mp hkind
        refine ⟨?_, fun s hs => by cases hs⟩
        have hkeeps := h.keeps
        simp only [spans, hopened, Option.map_some, Option.toList_some] at hkeeps ⊢
        by_cases htext : reasoningSummaryText event = ""
        · simpa [htext] using hkeeps.after hdelta
        · have hreplace := hkeeps.replace event (by rw [hspeech, hreasoning]; rfl)
            (by simpa only [hreasoning, replacementText] using htext)
          simpa [htext] using hreplace
      · rw [if_neg hkind]
        by_cases htext : reasoningSummaryText event = ""
        · rw [if_pos htext]
          exact ⟨h.keeps.after hdelta, h.summaries⟩
        · rw [if_neg htext]
          refine ⟨?_, ?_⟩
          · have hpush := h.keeps.push_whole .reasoning hspeech htext
            simpa [spans] using hpush
          · intro s hs
            rcases List.mem_append.mp hs with hs | hs
            · exact h.summaries s hs
            · rw [List.mem_singleton.mp hs]
              rfl
  | final =>
      simp only
      unfold Turn.settle
      have hspans : ({ t.close with finalized := true } : Turn).spans = t.spans := close_spans t
      by_cases htext : finalText event = ""
      · rw [if_pos htext]
        refine ⟨?_, hclose.summaries⟩
        rw [hspans]
        exact h.keeps.after (by simp [isDelta, hspeech])
      · rw [if_neg htext]
        cases htail : ({ t.close with finalized := true } : Turn).tail with
        | none =>
            refine ⟨?_, hclose.summaries⟩
            have hpush := h.keeps.push_whole .text hspeech htext
            simpa [spans, close] using hpush
        | some last =>
            obtain ⟨_, hlast, htextual⟩ := tail_eq_some_iff.mp htail
            obtain ⟨rest, hsettled⟩ := List.getLast?_eq_some_iff.mp hlast
            refine ⟨?_, hclose.summaries⟩
            have hkeeps := h.keeps
            have hall : t.spans = rest ++ [last] := hsettled
            rw [hall, ← List.append_nil (rest ++ [last])] at hkeeps
            have hreplace := hkeeps.replace event (by rw [hspeech, htextual]; rfl)
              (by simpa only [htextual, replacementText] using htext)
            have hclosed : t.close.settled = rest ++ [last] := hsettled
            simp only [hclosed, List.dropLast_concat]
            simpa [spans, close] using hreplace

theorem foldl (h : t.Kept events) (later : List RuntimeEventEnvelope) :
    (later.foldl Turn.step t).Kept (events ++ later) :=
  foldl_of_step (R := fun events t => Turn.Kept events t) (C := fun _ => True)
    (fun h _ => h.step _) h fun _ _ => trivial

end Turn.Kept

/-! ### The text of an answer -/

def IsText (event : RuntimeEventEnvelope) : Prop := speech event = .delta .text

/-- The event brings reasoning, as a delta or whole. -/
def Reasons (event : RuntimeEventEnvelope) : Prop :=
  speech event = .delta .reasoning ∨ (speech event = .summary ∧ reasoningSummaryText event ≠ "")

/-- The event is a final response with a text. -/
def Answers (event : RuntimeEventEnvelope) : Prop := speech event = .final ∧ finalText event ≠ ""

namespace Turn

def kinds (t : Turn) : List TurnPartKind := t.spans.map fun s => s.kind

def openKind (t : Turn) : Option TurnPartKind := t.opened.map Passage.kind

def textSpans (t : Turn) : List Span := t.spans.filter fun s => s.kind = .text

def texts (t : Turn) : List String := t.textSpans.map Span.text

theorem length_texts (t : Turn) : t.texts.length = t.kinds.count .text := by
  rw [texts, textSpans, kinds, List.length_map, List.count_eq_countP, List.countP_map,
    List.countP_eq_length_filter]
  congr 1

theorem tail_close (t : Turn) : t.close.tail =
    if t.cardSinceProse then none else t.spans.getLast?.filter fun s => s.kind = .text := rfl

theorem appendDelta_kinds (t : Turn) (kind : TurnPartKind) (event : RuntimeEventEnvelope) :
    (t.appendDelta kind event).kinds =
        (if t.openKind = some kind then t.kinds else t.kinds ++ [kind]) ∧
      (t.appendDelta kind event).openKind = some kind := by
  unfold appendDelta openKind
  cases hopened : t.opened with
  | none => simp [kinds, spans, close, hopened]
  | some p => by_cases hkind : p.kind = kind <;> simp [kinds, spans, close, hopened, hkind]

variable {event : RuntimeEventEnvelope}

/-- A final response with a text settles into the last span or stands in its own. -/
theorem settle_spans (t : Turn) (htext : finalText event ≠ "") :
    ({ t.close with finalized := true }.settle event).spans =
      match t.close.tail with
      | some last => t.spans.dropLast ++ [{ last with replacement := some event }]
      | none => t.spans ++ [.whole .text event] := by
  unfold settle
  rw [if_neg htext]
  have htail : ({ t.close with finalized := true } : Turn).tail = t.close.tail := rfl
  rw [htail]
  cases t.close.tail <;> simp [spans, close]

theorem settle_kinds (t : Turn) (htext : finalText event ≠ "") :
    ({ t.close with finalized := true }.settle event).kinds =
      if t.cardSinceProse = false ∧ t.kinds.getLast? = some .text then t.kinds
      else t.kinds ++ [.text] := by
  unfold kinds
  rw [settle_spans t htext, List.getLast?_map]
  cases htail : t.close.tail with
  | none =>
      rw [if_neg]
      · simp [Span.whole]
      · rintro ⟨hcard, hlast⟩
        obtain ⟨last, hlast, hkind⟩ := Option.map_eq_some_iff.mp hlast
        rw [tail_close, hcard, hlast] at htail
        simp [hkind] at htail
  | some last =>
      obtain ⟨hcard, hlast, hkind⟩ := tail_eq_some_iff.mp htail
      have hcard' : t.cardSinceProse = false := hcard
      have hlast' : t.spans.getLast? = some last := hlast
      rw [if_pos ⟨hcard', by rw [hlast', Option.map_some, hkind]⟩]
      obtain ⟨rest, hspans⟩ := List.getLast?_eq_some_iff.mp hlast'
      simp [hspans]

/-- How the kinds of the spans move, and that of the open one. -/
theorem step_kinds (t : Turn) (event : RuntimeEventEnvelope) :
    ((t.step event).kinds, (t.step event).openKind) =
      match speech event with
      | .silent => (t.kinds, t.openKind)
      | .card => (t.kinds, none)
      | .delta kind => (if t.openKind = some kind then t.kinds else t.kinds ++ [kind], some kind)
      | .summary =>
          if t.openKind = some .reasoning then (t.kinds, none)
          else if reasoningSummaryText event = "" then (t.kinds, t.openKind)
          else (t.kinds ++ [.reasoning], t.openKind)
      | .final =>
          (if finalText event = "" ∨ t.cardSinceProse = false ∧ t.kinds.getLast? = some .text
            then t.kinds else t.kinds ++ [.text], none) := by
  unfold step
  cases speech event with
  | silent => rfl
  | card => simp [kinds, openKind, close, spans]
  | delta kind => exact Prod.ext (t.appendDelta_kinds kind event).1 (t.appendDelta_kinds kind event).2
  | summary =>
      simp only [summarize, openKind]
      by_cases hkind : t.opened.map Passage.kind = some .reasoning
      · obtain ⟨p, hopened, _⟩ := Option.map_eq_some_iff.mp hkind
        simp only [if_pos hkind]
        rw [hopened] at hkind
        simp [kinds, spans, hopened, hkind]
      · simp only [if_neg hkind]
        split <;> simp [kinds, spans, Span.whole]
  | final =>
      refine Prod.ext ?_ ?_
      · by_cases htext : finalText event = ""
        · simp [settle, htext, kinds, spans, close]
        · simpa [htext] using t.settle_kinds htext
      · simp only [settle]
        split
        · rfl
        · split <;> rfl

/-- Only text and final responses with a text change the texts of a turn. -/
theorem step_texts (t : Turn) (htext : ¬ IsText event) (hanswers : ¬ Answers event) :
    (t.step event).texts = t.texts := by
  have hclose : t.close.texts = t.texts := by rw [texts, textSpans, Kept.close_spans]; rfl
  unfold step
  cases hspeech : speech event with
  | silent => rfl
  | card => exact hclose
  | delta kind =>
      have hkind : kind = .reasoning := by
        cases kind with
        | text => exact (htext hspeech).elim
        | reasoning => rfl
      subst hkind
      change (t.appendDelta .reasoning event).texts = t.texts
      unfold appendDelta
      cases hopened : t.opened with
      | none => simp [texts, textSpans, spans, close, hopened]
      | some p =>
          by_cases hkind : p.kind = .reasoning
          · simp [texts, textSpans, spans, hopened, hkind]
          · simp [texts, textSpans, spans, close, hopened, hkind, List.filter_cons]
  | summary =>
      change (t.summarize event).texts = t.texts
      unfold summarize
      by_cases hkind : t.opened.map Passage.kind = some .reasoning
      · obtain ⟨p, hopened, hp⟩ := Option.map_eq_some_iff.mp hkind
        rw [if_pos hkind]
        simp [texts, textSpans, spans, hopened, hp]
      · rw [if_neg hkind]
        split
        · rfl
        · simp [texts, textSpans, spans, Span.whole]
  | final =>
      have hempty : finalText event = "" := by
        by_contra hne
        exact hanswers ⟨hspeech, hne⟩
      change ({ t.close with finalized := true }.settle event).texts = t.texts
      unfold settle
      rw [if_pos hempty]
      exact hclose

/-- The texts after a final response: its own text comes last, and nothing else is new. -/
theorem step_texts_of_answers (t : Turn) (h : Answers event) :
    (t.step event).texts =
      (if t.cardSinceProse = false ∧ t.kinds.getLast? = some .text then t.texts.dropLast
        else t.texts) ++ [finalText event] := by
  have hstep : (t.step event).texts = ({ t.close with finalized := true }.settle event).texts := by
    simp [step, h.1]
  rw [hstep]
  unfold texts textSpans
  rw [settle_spans t h.2]
  cases htail : t.close.tail with
  | none =>
      rw [if_neg]
      · simp [Span.whole, Span.text, replacementText]
      · rintro ⟨hcard, hlast⟩
        rw [kinds, List.getLast?_map] at hlast
        obtain ⟨last, hlast, hkind⟩ := Option.map_eq_some_iff.mp hlast
        rw [tail_close, hcard, hlast] at htail
        simp [hkind] at htail
  | some last =>
      obtain ⟨hcard, hlast, hkind⟩ := tail_eq_some_iff.mp htail
      have hcard' : t.cardSinceProse = false := hcard
      obtain ⟨rest, hspans⟩ := List.getLast?_eq_some_iff.mp (show t.spans.getLast? = some last from hlast)
      rw [if_pos ⟨hcard', by simp [kinds, hspans, hkind]⟩]
      simp [hspans, hkind, Span.text, replacementText]

/-- A turn that other spans precede. -/
def under (base : List Span) (t : Turn) : Turn := { t with settled := base ++ t.settled }

theorem under_spans (base : List Span) (t : Turn) : (t.under base).spans = base ++ t.spans := by
  simp [under, spans]

/-- A final response finds the last span of the turn without looking at what precedes it. -/
def Apart (base : List Span) (t : Turn) : Prop :=
  base = [] ∨ t.cardSinceProse = true ∨ t.kinds ≠ []

/-- A turn with a span, or one that a delta moves, has a span afterwards. -/
theorem step_kinds_ne_nil {t : Turn} (h : t.kinds ≠ [] ∨ ∃ kind, speech event = .delta kind) :
    (t.step event).kinds ≠ [] := by
  have hopen : ∀ kind, t.openKind = some kind → t.kinds ≠ [] := by
    intro kind hkind
    obtain ⟨p, hopened, _⟩ := Option.map_eq_some_iff.mp hkind
    simp [kinds, spans, hopened]
  have hkinds := congrArg Prod.fst (t.step_kinds event)
  dsimp only at hkinds
  rw [hkinds]
  rcases h with hne | ⟨kind, hkind⟩
  · cases speech event with
    | silent | card => exact hne
    | delta kind => dsimp only; split <;> simp [hne]
    | summary => dsimp only; split <;> [exact hne; split <;> simp [hne]]
    | final => dsimp only; split <;> simp [hne]
  · rw [hkind]
    dsimp only
    split
    · next hsame => exact hopen kind hsame
    · simp

theorem step_under {base : List Span} {t : Turn} (h : t.Apart base) (hcard : speech event ≠ .card) :
    (t.under base).step event = (t.step event).under base ∧ (t.step event).Apart base := by
  have hclose : (t.under base).close = t.close.under base := by
    simp [close, under, spans]
  refine ⟨?_, ?_⟩
  · unfold step
    cases hspeech : speech event with
    | silent => rfl
    | card => exact (hcard hspeech).elim
    | delta kind =>
        simp only [appendDelta, hclose]
        have hopened : (t.under base).opened = t.opened := rfl
        rw [hopened]
        cases t.opened with
        | none => rfl
        | some p => by_cases hkind : p.kind = kind <;> simp [hkind, under]
    | summary =>
        have hopened : (t.under base).opened = t.opened := rfl
        simp only [summarize, hopened]
        split
        · simp [under]
        · split <;> rfl
    | final =>
        simp only [hclose]
        change ({ t.close with finalized := true }.under base).settle event = _
        have htail : ({ t.close with finalized := true }.under base).tail =
            ({ t.close with finalized := true } : Turn).tail := by
          unfold tail
          rcases h with rfl | hc | hne
          · rfl
          · have hc' : t.close.cardSinceProse = true := hc
            simp [under, hc']
          · have hspans : t.spans ≠ [] := fun hnil => hne (by rw [kinds, hnil]; rfl)
            change (if _ then _ else (List.getLast? (base ++ t.spans)).filter _) = _
            rw [List.getLast?_append_of_ne_nil _ hspans]
            rfl
        unfold settle
        split
        · rfl
        · rw [htail]
          cases hlast : ({ t.close with finalized := true } : Turn).tail with
          | none => simp [under]
          | some last =>
              have hne : t.close.settled ≠ [] := by
                intro hnil
                have hsome := (tail_eq_some_iff.mp hlast).2.1
                rw [show ({ t.close with finalized := true } : Turn).settled = [] from hnil] at hsome
                cases hsome
              simp [under, List.dropLast_append_of_ne_nil hne]
  · rcases h with hbase | hc | hne
    · exact .inl hbase
    · cases hspeech : speech event with
      | silent => exact .inr (.inl (by simpa [step, hspeech] using hc))
      | card => exact (hcard hspeech).elim
      | delta kind => exact .inr (.inr (step_kinds_ne_nil (.inr ⟨kind, hspeech⟩)))
      | summary => exact .inr (.inl (by simpa [step, hspeech] using hc))
      | final => exact .inr (.inl (by simpa [step, hspeech, close] using hc))
    · exact .inr (.inr (step_kinds_ne_nil (.inl hne)))

end Turn

theorem Turn.foldl_under {base : List Span} {t : Turn} (h : t.Apart base)
    {later : List RuntimeEventEnvelope} (hcards : ∀ e ∈ later, speech e ≠ .card) :
    later.foldl step (t.under base) = (later.foldl step t).under base ∧
      (later.foldl step t).Apart base := by
  induction later generalizing t with
  | nil => exact ⟨rfl, h⟩
  | cons e rest ih =>
      obtain ⟨hunder, hapart⟩ := step_under h (hcards e List.mem_cons_self)
      rw [List.foldl_cons, hunder]
      exact ih hapart fun x hx => hcards x (List.mem_cons_of_mem _ hx)

theorem Turn.foldl_texts (t : Turn) {later : List RuntimeEventEnvelope}
    (hlater : ∀ e ∈ later, ¬ IsText e ∧ ¬ Answers e) : (later.foldl step t).texts = t.texts := by
  induction later generalizing t with
  | nil => rfl
  | cons e rest ih =>
      obtain ⟨htext, hanswers⟩ := hlater e List.mem_cons_self
      rw [List.foldl_cons, ih _ fun x hx => hlater x (List.mem_cons_of_mem _ hx),
        step_texts t htext hanswers]

end CopilotRuntime.Transcript
