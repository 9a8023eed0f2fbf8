import CopilotRuntime.Transcript.Spans

/-!
# Answers in a transcript

A final response that repeats what was said since the last card settles into it, unless reasoning
came in between.
-/

namespace CopilotRuntime.Transcript

open Foundation

/-! ### Stretches between cards -/

/-- Some event of the stretch is text. -/
def Texts (events : List RuntimeEventEnvelope) : Prop := ∃ e ∈ events, IsText e

/-- A final response has a text of its own or follows text. -/
def Ends (events : List RuntimeEventEnvelope) : Prop :=
  ∃ a e b, events = a ++ e :: b ∧ speech e = .final ∧ (Texts a ∨ finalText e ≠ "")

/-- No reasoning follows text, and no text follows a final response that ends the text. -/
def Uninterrupted (events : List RuntimeEventEnvelope) : Prop :=
  ∀ a e b, events = a ++ e :: b →
    (Reasons e → ¬ Texts a) ∧ (speech e = .final → Texts a ∨ finalText e ≠ "" → ¬ Texts b)

variable {events : List RuntimeEventEnvelope} {e : RuntimeEventEnvelope}

@[simp] theorem texts_concat :
    Texts (events ++ [e]) ↔ Texts events ∨ IsText e := by
  simp [Texts, or_and_right, exists_or]

@[simp] theorem ends_concat :
    Ends (events ++ [e]) ↔
      Ends events ∨ (speech e = .final ∧ (Texts events ∨ finalText e ≠ "")) := by
  unfold Ends
  constructor
  · rintro ⟨a, x, b, hsplit, hfinal, hends⟩
    obtain ⟨rfl, rfl, rfl⟩ | ⟨b', rfl, rfl⟩ := snoc_eq_append_cons_iff.mp hsplit
    · exact .inr ⟨hfinal, hends⟩
    · exact .inl ⟨a, x, b', rfl, hfinal, hends⟩
  · rintro (⟨a, x, b, rfl, hfinal, hends⟩ | ⟨hfinal, hends⟩)
    · exact ⟨a, x, b ++ [e], by simp, hfinal, hends⟩
    · exact ⟨events, e, [], rfl, hfinal, hends⟩

@[simp] theorem uninterrupted_concat :
    Uninterrupted (events ++ [e]) ↔
      Uninterrupted events ∧ (Reasons e → ¬ Texts events) ∧ (IsText e → ¬ Ends events) := by
  constructor
  · intro h
    refine ⟨fun a x b hsplit => ?_, (h events e [] rfl).1, ?_⟩
    · obtain ⟨hreasons, hfinal⟩ := h a x (b ++ [e]) (by rw [hsplit]; simp)
      refine ⟨hreasons, fun hx hends htexts => hfinal hx hends ?_⟩
      exact texts_concat.mpr (.inl htexts)
    · rintro htext ⟨a, x, b, rfl, hx, hends⟩
      exact (h a x (b ++ [e]) (by simp)).2 hx hends (texts_concat.mpr (.inr htext))
  · rintro ⟨h, hreasons, htext⟩ a x b hsplit
    obtain ⟨rfl, rfl, rfl⟩ | ⟨b', rfl, hevents⟩ := snoc_eq_append_cons_iff.mp hsplit
    · exact ⟨hreasons, fun _ _ => by simp [Texts]⟩
    · obtain ⟨hr, hf⟩ := h a x b' hevents
      refine ⟨hr, fun hx hends htexts => ?_⟩
      rcases texts_concat.mp htexts with htexts | he
      · exact hf hx hends htexts
      · exact htext he ⟨a, x, b', hevents, hx, hends⟩

theorem IsText.not_others (h : IsText e) :
    ¬ Reasons e ∧ speech e ≠ .final := by
  have hspeech : speech e = .delta .text := h
  simp [Reasons, hspeech]

theorem Reasons.not_others (h : Reasons e) :
    ¬ IsText e ∧ speech e ≠ .final := by
  rcases h with h | ⟨h, _⟩ <;> simp [IsText, h]

theorem not_of_final (h : speech e = .final) :
    ¬ IsText e ∧ ¬ Reasons e := by
  simp [IsText, Reasons, h]

/-- Where a stretch without cards has brought a turn. -/
inductive Stage (events : List RuntimeEventEnvelope) (t : Turn) : Prop
  | quiet (silent : ¬ Texts events) (going : ¬ Ends events) (kinds : .text ∉ t.kinds)
  | early (silent : ¬ Texts events) (ended : Ends events) (kinds : .text ∈ t.kinds)
      (shut : t.openKind ≠ some .text)
  | placed (told : Texts events) (uninterrupted : Uninterrupted events)
      (kinds : ∃ rest, t.kinds = rest ++ [.text] ∧ .text ∉ rest) (prose : t.cardSinceProse = false)
      (plain : t.openKind ≠ some .reasoning) (ended : Ends events ↔ t.openKind ≠ some .text)
  | spoiled (interrupted : ¬ Uninterrupted events)
      (kinds : 2 ≤ t.kinds.count .text ∨ (.text ∈ t.kinds ∧ t.kinds.getLast? = some .reasoning))

namespace Stage

variable {events : List RuntimeEventEnvelope} {t : Turn}

theorem uninterrupted_of_not_texts (h : ¬ Texts events) : Uninterrupted events := by
  rintro a e b rfl
  refine ⟨fun _ ha => h ?_, fun _ _ hb => h ?_⟩
  · obtain ⟨x, hx, htext⟩ := ha
    exact ⟨x, List.mem_append_left _ hx, htext⟩
  · obtain ⟨x, hx, htext⟩ := hb
    exact ⟨x, List.mem_append_right _ (List.mem_cons_of_mem _ hx), htext⟩

theorem openKind_mem {kind : TurnPartKind} (h : t.openKind = some kind) : kind ∈ t.kinds := by
  obtain ⟨p, hopened, rfl⟩ := Option.map_eq_some_iff.mp h
  simp [Turn.kinds, Turn.spans, hopened]

/-- What an event that is no card does to the kinds of a turn. -/
theorem step_cases (t : Turn) {e : RuntimeEventEnvelope} (hcard : speech e ≠ .card) :
    (IsText e ∧ (t.step e).kinds = (if t.openKind = some .text then t.kinds
        else t.kinds ++ [.text]) ∧ (t.step e).openKind = some .text ∧
        (t.step e).cardSinceProse = false) ∨
      (Reasons e ∧ ((t.step e).kinds = t.kinds ++ [.reasoning] ∨
          t.openKind = some .reasoning ∧ (t.step e).kinds = t.kinds) ∧
        ((t.step e).openKind = some .text → t.openKind = some .text)) ∨
      (speech e = .final ∧ (t.step e).kinds = (if finalText e = "" ∨ t.cardSinceProse = false ∧
          t.kinds.getLast? = some .text then t.kinds else t.kinds ++ [.text]) ∧
        (t.step e).openKind = none ∧ (t.step e).cardSinceProse = t.cardSinceProse) ∨
      ((¬ IsText e ∧ ¬ Reasons e ∧ speech e ≠ .final) ∧ (t.step e).kinds = t.kinds ∧
        ((t.step e).openKind = t.openKind ∨
          t.openKind = some .reasoning ∧ (t.step e).openKind = none) ∧
        (t.step e).cardSinceProse = t.cardSinceProse) := by
  have hstep := t.step_kinds e
  unfold IsText Reasons
  cases hspeech : speech e with
  | card => exact (hcard hspeech).elim
  | silent =>
      rw [hspeech] at hstep
      obtain ⟨hkinds, hopen⟩ := Prod.mk.inj hstep
      exact .inr (.inr (.inr ⟨by simp, hkinds, .inl hopen, by simp [Turn.step, hspeech]⟩))
  | delta kind =>
      rw [hspeech] at hstep
      obtain ⟨hkinds, hopen⟩ := Prod.mk.inj hstep
      cases kind with
      | text => exact .inl ⟨rfl, hkinds, hopen, by simp [Turn.step, hspeech]⟩
      | reasoning =>
          refine .inr (.inl ⟨.inl rfl, ?_, by simp [hopen]⟩)
          split at hkinds
          · next hsame => exact .inr ⟨hsame, hkinds⟩
          · exact .inl hkinds
  | summary =>
      rw [hspeech] at hstep
      have hflag : (t.step e).cardSinceProse = t.cardSinceProse := by simp [Turn.step, hspeech]
      by_cases hreasoning : t.openKind = some .reasoning
      · simp only [if_pos hreasoning] at hstep
        obtain ⟨hkinds, hopen⟩ := Prod.mk.inj hstep
        by_cases htext : reasoningSummaryText e = ""
        · exact .inr (.inr (.inr ⟨by simp [htext], hkinds, .inr ⟨hreasoning, hopen⟩, hflag⟩))
        · exact .inr (.inl ⟨.inr ⟨rfl, htext⟩, .inr ⟨hreasoning, hkinds⟩, by simp [hopen]⟩)
      · simp only [if_neg hreasoning] at hstep
        by_cases htext : reasoningSummaryText e = ""
        · rw [if_pos htext] at hstep
          obtain ⟨hkinds, hopen⟩ := Prod.mk.inj hstep
          exact .inr (.inr (.inr ⟨by simp [htext], hkinds, .inl hopen, hflag⟩))
        · rw [if_neg htext] at hstep
          obtain ⟨hkinds, hopen⟩ := Prod.mk.inj hstep
          exact .inr (.inl ⟨.inr ⟨rfl, htext⟩, .inl hkinds, fun h => hopen ▸ h⟩)
  | final =>
      rw [hspeech] at hstep
      obtain ⟨hkinds, hopen⟩ := Prod.mk.inj hstep
      exact .inr (.inr (.inl ⟨rfl, hkinds, hopen, by simp [Turn.step, hspeech, Turn.close]⟩))

theorem step (h : Stage events t) {e : RuntimeEventEnvelope} (hcard : speech e ≠ .card) :
    Stage (events ++ [e]) (t.step e) := by
  cases h with
  | quiet silent going kinds =>
      have hshut : t.openKind ≠ some .text := fun hopen => kinds (openKind_mem hopen)
      obtain ⟨htext, hkinds, hopen, hprose⟩ | ⟨hreasons, hkinds, _⟩ | ⟨hfinal, hkinds, hopen, _⟩ |
        ⟨⟨htext, hreasons, hfinal⟩, hkinds, _⟩ := step_cases t hcard
      · refine .placed (by simp [htext]) ?_ ⟨t.kinds, by rw [hkinds, if_neg hshut], kinds⟩ hprose
          (by simp [hopen]) (by simp [going, htext.not_others, hopen])
        simp [uninterrupted_of_not_texts silent, silent, going]
      · refine .quiet (by simp [silent, hreasons.not_others]) (by simp [going, hreasons.not_others]) ?_
        rcases hkinds with hkinds | ⟨_, hkinds⟩ <;> simp [hkinds, kinds]
      · by_cases hempty : finalText e = ""
        · refine .quiet (by simp [silent, not_of_final hfinal]) (by simp [going, silent, hempty]) ?_
          simpa [hkinds, hempty] using kinds
        · refine .early (by simp [silent, not_of_final hfinal]) (by simp [hfinal, hempty]) ?_
            (by simp [hopen])
          rw [hkinds, if_neg]
          · simp
          · rintro (h | ⟨_, hlast⟩)
            · exact hempty h
            · exact kinds (List.mem_of_getLast? hlast)
      · exact .quiet (by simp [silent, htext]) (by simp [going, hfinal]) (hkinds ▸ kinds)
  | early silent ended kinds shut =>
      obtain ⟨htext, hkinds, _⟩ | ⟨hreasons, hkinds, hopen⟩ | ⟨hfinal, hkinds, hopen, _⟩ |
        ⟨⟨htext, hreasons, hfinal⟩, hkinds, hopen, _⟩ := step_cases t hcard
      · refine .spoiled (by simp [htext, ended]) (.inl ?_)
        rw [hkinds, if_neg shut, List.count_append]
        have hone := List.count_pos_iff.mpr kinds
        simp only [List.count_singleton_self]
        omega
      · refine .early (by simp [silent, hreasons.not_others]) (by simp [ended]) ?_
          (fun h => shut (hopen h))
        rcases hkinds with hkinds | ⟨_, hkinds⟩ <;> simp [hkinds, kinds]
      · refine .early (by simp [silent, not_of_final hfinal]) (by simp [ended]) ?_ (by simp [hopen])
        rw [hkinds]
        split <;> simp [kinds]
      · refine .early (by simp [silent, htext]) (by simp [ended]) (hkinds ▸ kinds) ?_
        rcases hopen with hopen | ⟨_, hopen⟩ <;> simp [hopen, shut]
  | placed told uninterrupted kinds prose plain ended =>
      obtain ⟨rest, hlast, hrest⟩ := kinds
      obtain ⟨htext, hkinds, hopen, hprose⟩ | ⟨hreasons, hkinds, _⟩ |
        ⟨hfinal, hkinds, hopen, hprose⟩ | ⟨⟨htext, hreasons, hfinal⟩, hkinds, hopen, hprose⟩ :=
        step_cases t hcard
      · by_cases hon : t.openKind = some .text
        · have hgoing : ¬ Ends events := fun h => ended.mp h hon
          refine .placed (by simp [told]) ?_ ⟨rest, by rw [hkinds, if_pos hon, hlast], hrest⟩ hprose
            (by simp [hopen]) (by simp [hgoing, htext.not_others, hopen])
          simp [uninterrupted, htext.not_others, hgoing]
        · refine .spoiled (by simp [htext, ended.mpr hon]) (.inl ?_)
          rw [hkinds, if_neg hon, hlast]
          simp
      · refine .spoiled (by simp [hreasons, told]) (.inr ?_)
        rcases hkinds with hkinds | ⟨hopen, _⟩
        · rw [hkinds]
          exact ⟨by simp [hlast], by simp⟩
        · exact (plain hopen).elim
      · have hsame : (t.step e).kinds = t.kinds := by
          rw [hkinds, if_pos (.inr ⟨prose, by simp [hlast]⟩)]
        refine .placed (by simp [told]) ?_ ⟨rest, hsame.trans hlast, hrest⟩ (hprose.trans prose)
          (by simp [hopen]) (by simp [hfinal, told, hopen])
        simp [uninterrupted, not_of_final hfinal]
      · have hsame : (t.step e).openKind = t.openKind := by
          rcases hopen with hopen | ⟨h, _⟩
          · exact hopen
          · exact (plain h).elim
        refine .placed (by simp [told]) (by simp [uninterrupted, hreasons, htext])
          ⟨rest, hkinds.trans hlast, hrest⟩ (hprose.trans prose) (hsame ▸ plain) ?_
        simp [hfinal, ended, hsame]
  | spoiled interrupted kinds =>
      have hgrown : 2 ≤ (t.kinds ++ [TurnPartKind.text]).count .text := by
        have hpos : 0 < t.kinds.count .text := by
          rcases kinds with htwo | ⟨hone, _⟩
          · omega
          · exact List.count_pos_iff.mpr hone
        simp only [List.count_append, List.count_singleton_self]
        omega
      refine .spoiled (fun h => interrupted (uninterrupted_concat.mp h).1) ?_
      obtain ⟨_, hkinds, _⟩ | ⟨_, hkinds, _⟩ | ⟨_, hkinds, _⟩ | ⟨_, hkinds, _⟩ := step_cases t hcard
      · rw [hkinds]
        split
        · exact kinds
        · exact .inl hgrown
      · rcases hkinds with hkinds | ⟨_, hkinds⟩
        · rw [hkinds]
          rcases kinds with htwo | ⟨hone, _⟩
          · exact .inl (htwo.trans (by simp))
          · exact .inr ⟨List.mem_append_left _ hone, by simp⟩
        · exact hkinds ▸ kinds
      · rw [hkinds]
        split
        · exact kinds
        · exact .inl hgrown
      · exact hkinds ▸ kinds

theorem foldl (h : Stage events t) {later : List RuntimeEventEnvelope}
    (hcards : ∀ e ∈ later, speech e ≠ .card) :
    Stage (events ++ later) (later.foldl Turn.step t) :=
  foldl_of_step (fun h hcard => h.step hcard) h hcards

end Stage

/-- Reasoning streams after text. -/
def Paused (events : List RuntimeEventEnvelope) : Prop :=
  ∃ a e b, events = a ++ e :: b ∧ speech e = .delta .reasoning ∧ Texts a

/-- Reasoning streams between two texts. -/
def Resumes (events : List RuntimeEventEnvelope) : Prop :=
  ∃ a e b, events = a ++ e :: b ∧ speech e = .delta .reasoning ∧ Texts a ∧ Texts b

theorem paused_concat {x : RuntimeEventEnvelope} :
    Paused (events ++ [x]) ↔ Paused events ∨ (speech x = .delta .reasoning ∧ Texts events) := by
  unfold Paused
  constructor
  · rintro ⟨a, e, b, hsplit, he, ha⟩
    obtain ⟨rfl, rfl, rfl⟩ | ⟨b', rfl, rfl⟩ := snoc_eq_append_cons_iff.mp hsplit
    · exact .inr ⟨he, ha⟩
    · exact .inl ⟨a, e, b', rfl, he, ha⟩
  · rintro (⟨a, e, b, rfl, he, ha⟩ | ⟨he, ha⟩)
    · exact ⟨a, e, b ++ [x], by simp, he, ha⟩
    · exact ⟨events, x, [], rfl, he, ha⟩

theorem resumes_concat {x : RuntimeEventEnvelope} :
    Resumes (events ++ [x]) ↔ Resumes events ∨ (Paused events ∧ IsText x) := by
  unfold Resumes
  constructor
  · rintro ⟨a, e, b, hsplit, he, ha, hb⟩
    obtain ⟨rfl, rfl, rfl⟩ | ⟨b', rfl, rfl⟩ := snoc_eq_append_cons_iff.mp hsplit
    · simp [Texts] at hb
    · rcases texts_concat.mp hb with hb | hx
      · exact .inl ⟨a, e, b', rfl, he, ha, hb⟩
      · exact .inr ⟨⟨a, e, b', rfl, he, ha⟩, hx⟩
  · rintro (⟨a, e, b, rfl, he, ha, hb⟩ | ⟨⟨a, e, b, rfl, he, ha⟩, hx⟩)
    · exact ⟨a, e, b ++ [x], by simp, he, ha, texts_concat.mpr (.inl hb)⟩
    · exact ⟨a, e, b ++ [x], by simp, he, ha, texts_concat.mpr (.inr hx)⟩

/-- How many texts a stretch without final responses makes. -/
structure Counted (events : List RuntimeEventEnvelope) (t : Turn) : Prop where
  told : Texts events ↔ .text ∈ t.kinds
  twice : 2 ≤ t.kinds.count .text ↔ Resumes events
  shut : Texts events → t.openKind ≠ some .text → Paused events
  going : Paused events → t.openKind = some .text → Resumes events

namespace Counted

variable {events : List RuntimeEventEnvelope} {t t' : Turn} {e : RuntimeEventEnvelope}

/-- An event that streams nothing leaves the texts and whether one is open. -/
theorem unmoved (h : Counted events t) (htext : ¬ IsText e)
    (hreasoning : speech e ≠ .delta .reasoning)
    (hkinds : t'.kinds = t.kinds ∨ t'.kinds = t.kinds ++ [.reasoning])
    (hopen : t'.openKind = some .text ↔ t.openKind = some .text) :
    Counted (events ++ [e]) t' := by
  have hcount : t'.kinds.count .text = t.kinds.count .text := by
    rcases hkinds with hkinds | hkinds <;> simp [hkinds]
  have hmem : .text ∈ t'.kinds ↔ .text ∈ t.kinds := by
    rcases hkinds with hkinds | hkinds <;> simp [hkinds]
  have hpaused : Paused (events ++ [e]) ↔ Paused events := by simp [paused_concat, hreasoning]
  have hresumes : Resumes (events ++ [e]) ↔ Resumes events := by simp [resumes_concat, htext]
  have htexts : Texts (events ++ [e]) ↔ Texts events := by simp [htext]
  constructor
  · rw [htexts, hmem, h.told]
  · rw [hcount, hresumes, h.twice]
  · rw [htexts, hpaused, ne_eq, hopen]
    exact h.shut
  · rw [hpaused, hresumes, hopen]
    exact h.going

theorem step (h : Counted events t) (hcard : speech e ≠ .card) (hfinal : speech e ≠ .final) :
    Counted (events ++ [e]) (t.step e) := by
  have hstep := t.step_kinds e
  cases hspeech : speech e with
  | card => exact (hcard hspeech).elim
  | final => exact (hfinal hspeech).elim
  | silent =>
      simp only [hspeech, Prod.mk.injEq] at hstep
      exact h.unmoved (by simp [IsText, hspeech]) (by simp [hspeech]) (.inl hstep.1)
        (by rw [hstep.2])
  | summary =>
      simp only [hspeech] at hstep
      have htext : ¬ IsText e := by simp [IsText, hspeech]
      have hreasoning : speech e ≠ .delta .reasoning := by simp [hspeech]
      split at hstep
      · next hopen =>
          obtain ⟨hkinds, hopen'⟩ := Prod.mk.inj hstep
          exact h.unmoved htext hreasoning (.inl hkinds) (by simp [hopen', hopen])
      · split at hstep
        · obtain ⟨hkinds, hopen'⟩ := Prod.mk.inj hstep
          exact h.unmoved htext hreasoning (.inl hkinds) (by rw [hopen'])
        · obtain ⟨hkinds, hopen'⟩ := Prod.mk.inj hstep
          exact h.unmoved htext hreasoning (.inr hkinds) (by rw [hopen'])
  | delta kind =>
      simp only [hspeech, Prod.mk.injEq] at hstep
      obtain ⟨hkinds, hopen⟩ := hstep
      cases kind with
      | reasoning =>
          have htext : ¬ IsText e := by simp [IsText, hspeech]
          have hcount : (t.step e).kinds.count .text = t.kinds.count .text := by
            rw [hkinds]
            split <;> simp
          have hmem : .text ∈ (t.step e).kinds ↔ .text ∈ t.kinds := by
            rw [hkinds]
            split <;> simp
          constructor
          · simp [htext, hmem, h.told]
          · rw [hcount, resumes_concat, h.twice]
            simp [htext]
          · intro htexts _
            have htold : Texts events := by simpa [htext] using htexts
            exact paused_concat.mpr (.inr ⟨hspeech, htold⟩)
          · simp [hopen]
      | text =>
          have htext : IsText e := hspeech
          constructor
          · simp only [texts_concat, htext, or_true, true_iff]
            rw [hkinds]
            split
            · next hon => exact Stage.openKind_mem hon
            · simp
          · rw [resumes_concat, hkinds]
            split
            · next hon =>
                rw [h.twice]
                refine ⟨.inl, ?_⟩
                rintro (hres | ⟨hpaused, _⟩)
                · exact hres
                · exact h.going hpaused hon
            · next hoff =>
                have hcount : (t.kinds ++ [TurnPartKind.text]).count .text =
                    t.kinds.count .text + 1 := by simp
                rw [hcount]
                constructor
                · intro htwo
                  have htold := h.told.mpr (List.count_pos_iff.mp (by omega))
                  exact .inr ⟨h.shut htold hoff, htext⟩
                · rintro (hres | ⟨⟨a, x, b, rfl, _, y, hy, hyt⟩, _⟩)
                  · have htwo := h.twice.mpr hres
                    omega
                  · have htold := h.told.mp ⟨y, List.mem_append_left _ hy, hyt⟩
                    have hpos := List.count_pos_iff.mpr htold
                    omega
          · simp [hopen]
          · intro hpaused _
            rcases paused_concat.mp hpaused with hpaused | ⟨hreasoning, _⟩
            · exact resumes_concat.mpr (.inr ⟨hpaused, htext⟩)
            · rw [hspeech] at hreasoning
              cases hreasoning

theorem foldl (h : Counted events t) {later : List RuntimeEventEnvelope}
    (hlater : ∀ e ∈ later, speech e ≠ .card ∧ speech e ≠ .final) :
    Counted (events ++ later) (later.foldl Turn.step t) :=
  foldl_of_step (fun h he => h.step he.1 he.2) h hlater

end Counted

/-! ### The answer among the texts -/

/-- What the text deltas of a stretch spell. -/
def spoken (events : List RuntimeEventEnvelope) : String :=
  String.join ((events.filter fun e => speech e = .delta .text).map payloadText)

theorem join_flatMap {α : Type*} (f : α → List String) (l : List α) :
    String.join (l.flatMap f) = String.join (l.map fun x => String.join (f x)) := by
  induction l with
  | nil => rfl
  | cons x l ih => simp [String.join_append, ih]

/-- The text deltas of spans are the deltas of the text spans. -/
theorem deltas_of_text {spans : List Span}
    (h : ∀ s ∈ spans, ∀ d ∈ s.deltas, speech d = .delta s.kind) :
    (spans.filter fun s => s.kind = .text).flatMap (fun s => s.deltas) =
      (spans.flatMap fun s => s.deltas).filter fun e => speech e = .delta .text := by
  induction spans with
  | nil => rfl
  | cons s rest ih =>
      have hrest := ih fun x hx => h x (List.mem_cons_of_mem _ hx)
      have hown := h s List.mem_cons_self
      rw [List.flatMap_cons, List.filter_append, ← hrest, List.filter_cons]
      by_cases hkind : s.kind = .text
      · have hall : s.deltas.filter (fun e => speech e = .delta .text) = s.deltas :=
          List.filter_eq_self.mpr fun d hd => by simp [hown d hd, hkind]
        simp [hkind, hall]
      · have hnone : s.deltas.filter (fun e => speech e = .delta .text) = [] :=
          List.filter_eq_nil_iff.mpr fun d hd => by simp [hown d hd, hkind]
        simp [hkind, hnone]

variable {t : Turn}

/-- Without a final response the texts of a turn spell its text deltas. -/
theorem Turn.Kept.join_texts (h : t.Kept events) (hfinals : ∀ e ∈ events, speech e ≠ .final) :
    String.join t.texts = spoken events := by
  have htext : ∀ s ∈ t.textSpans, s.text = String.join (s.deltas.map payloadText) := by
    intro s hs
    obtain ⟨hmem, hkind⟩ := List.mem_filter.mp hs
    unfold Span.text
    cases hreplacement : s.replacement with
    | none => rfl
    | some e =>
        obtain ⟨hspeech, _, earlier, rest, rfl, _⟩ := h.keeps.replaced s hmem e hreplacement
        rw [of_decide_eq_true hkind] at hspeech
        exact (hfinals e (by simp) hspeech).elim
  have hdeltas : t.textSpans.flatMap (fun s => s.deltas) =
      events.filter fun e => speech e = .delta .text := by
    rw [Turn.textSpans, deltas_of_text h.keeps.spoken, h.keeps.deltas, List.filter_filter]
    apply List.filter_congr
    intro e _
    by_cases he : speech e = .delta .text <;> simp [isDelta, he]
  rw [Turn.texts, List.map_congr_left htext, ← join_flatMap, ← List.map_flatMap, hdeltas]
  rfl

/-- A turn of which only the flags are known. -/
def Turn.fresh (finalized cardSinceProse : Bool) : Turn := ⟨[], none, [], finalized, cardSinceProse⟩

variable {final : RuntimeEventEnvelope}

/-- A final response settles into the only text of a stretch exactly when nothing interrupted
that text. -/
theorem answer_alone_iff (h : Stage events t) (htold : Texts events) (hfinal : Answers final) :
    (t.step final).texts = [finalText final] ↔ Uninterrupted events := by
  rw [Turn.step_texts_of_answers t hfinal]
  have hlength := t.length_texts
  cases h with
  | quiet silent _ _ => exact (silent htold).elim
  | early silent _ _ _ => exact (silent htold).elim
  | placed _ uninterrupted kinds prose _ _ =>
      obtain ⟨rest, hkinds, hrest⟩ := kinds
      have hone : t.texts.length = 1 := by
        rw [hlength, hkinds, List.count_append, List.count_eq_zero.mpr hrest]
        simp
      obtain ⟨text, htexts⟩ := List.length_eq_one_iff.mp hone
      rw [if_pos ⟨prose, by simp [hkinds]⟩, htexts]
      simp [uninterrupted]
  | spoiled interrupted kinds =>
      refine ⟨fun hsame => ?_, fun hun => (interrupted hun).elim⟩
      have hsingle := congrArg List.length hsame
      rw [List.length_append, List.length_singleton] at hsingle
      rcases kinds with htwo | ⟨hone, hlast⟩
      · split at hsingle
        · rw [List.length_dropLast] at hsingle
          omega
        · omega
      · rw [if_neg (by simp [hlast]), hlength] at hsingle
        have hpos := List.count_pos_iff.mpr hone
        omega

/-- A piece of two texts is not the whole of them. -/
theorem ne_join {texts : List String} {text : String} (htwo : 2 ≤ texts.length)
    (hne : ∀ x ∈ texts, x ≠ "") (hmem : text ∈ texts) : text ≠ String.join texts := by
  obtain ⟨a, b, rfl⟩ := List.append_of_mem hmem
  have hlength : ∀ l : List String, (String.join l).length = (l.map String.length).sum := by
    intro l
    induction l with
    | nil => rfl
    | cons x l ih => simp [ih]
  have hother : 0 < ((a ++ b).map String.length).sum := by
    obtain ⟨x, hx⟩ := List.exists_mem_of_ne_nil (a ++ b) (by
      rintro hnil
      obtain ⟨rfl, rfl⟩ := List.append_eq_nil_iff.mp hnil
      simp at htwo)
    have hpos : 0 < x.length := by
      rw [Nat.pos_iff_ne_zero, ne_eq, String.length_eq_zero_iff]
      apply hne
      simp only [List.mem_append, List.mem_cons] at hx ⊢
      tauto
    obtain ⟨c, d, hsplit⟩ := List.append_of_mem hx
    rw [hsplit]
    simp only [List.map_append, List.map_cons, List.sum_append, List.sum_cons]
    omega
  intro hjoin
  have hsum := hlength (a ++ text :: b)
  rw [← hjoin] at hsum
  simp only [List.map_append, List.map_cons, List.sum_append, List.sum_cons] at hsum hother
  omega

/-- A final response that repeats what a stretch said stands once among its texts exactly when
nothing interrupted the text, or reasoning split it. -/
theorem answer_once_iff (h : Stage events t) (hkept : t.Kept events) (hcounted : Counted events t)
    (htold : Texts events) (hfinals : ∀ e ∈ events, speech e ≠ .final) (hfinal : Answers final)
    (hspoken : finalText final = spoken events) :
    (t.step final).texts.count (finalText final) = 1 ↔
      Uninterrupted events ∨ Resumes events := by
  have hjoin : String.join t.texts = finalText final := (hkept.join_texts hfinals).trans hspoken.symm
  have hlength := t.length_texts
  by_cases hun : Uninterrupted events
  · simp [(answer_alone_iff h htold hfinal).mpr hun, hun]
  · simp only [hun, false_or, ← hcounted.twice]
    rw [Turn.step_texts_of_answers t hfinal, List.count_append, List.count_singleton_self]
    by_cases htwo : 2 ≤ t.kinds.count .text
    · have hother : finalText final ∉ t.texts := by
        intro hmem
        refine ne_join (hlength ▸ htwo) ?_ hmem hjoin.symm
        intro x hx
        obtain ⟨s, hs, rfl⟩ := List.mem_map.mp hx
        exact hkept.keeps.text_ne (List.mem_of_mem_filter hs)
      have hnone : (if t.cardSinceProse = false ∧ t.kinds.getLast? = some .text then
          t.texts.dropLast else t.texts).count (finalText final) = 0 := by
        rw [List.count_eq_zero]
        split
        · exact fun hmem => hother ((List.dropLast_sublist _).subset hmem)
        · exact hother
      simp [hnone, htwo]
    · have hone : t.texts.length = 1 := by
        have hpos := List.count_pos_iff.mpr (hcounted.told.mp htold)
        omega
      obtain ⟨text, htexts⟩ := List.length_eq_one_iff.mp hone
      rw [htexts, String.join_cons, String.join_nil, String.append_empty] at hjoin
      have hlast : t.kinds.getLast? = some .reasoning := by
        cases h with
        | quiet silent _ _ => exact (silent htold).elim
        | early silent _ _ _ => exact (silent htold).elim
        | placed _ uninterrupted _ _ _ _ => exact (hun uninterrupted).elim
        | spoiled _ kinds =>
            rcases kinds with hmany | ⟨_, hlast⟩
            · exact (htwo hmany).elim
            · exact hlast
      rw [if_neg (by simp [hlast]), htexts, hjoin]
      simp [htwo]

/-! ### Transcripts -/

theorem unseen_spec (seen : List String) (events : List RuntimeEventEnvelope) :
    (unseen seen events).Sublist events ∧
      (∀ e ∈ unseen seen events, e.subagentId.isSome = false ∧ e.eventId ∉ seen) ∧
      ((unseen seen events).map RuntimeEventEnvelope.eventId).Nodup := by
  induction events generalizing seen with
  | nil => simp [unseen]
  | cons e rest ih =>
      rw [unseen]
      split
      · obtain ⟨hsub, hmain, hnodup⟩ := ih seen
        exact ⟨hsub.cons _, hmain, hnodup⟩
      · next hkeep =>
          obtain ⟨hsub, hmain, hnodup⟩ := ih (e.eventId :: seen)
          obtain ⟨hnone, hnew⟩ := not_or.mp hkeep
          refine ⟨hsub.cons_cons _, ?_, ?_⟩
          · intro x hx
            rcases List.mem_cons.mp hx with rfl | hx
            · exact ⟨Bool.eq_false_iff.mpr hnone, hnew⟩
            · obtain ⟨hx, hxnew⟩ := hmain x hx
              exact ⟨hx, fun hseen => hxnew (List.mem_cons_of_mem _ hseen)⟩
          · refine List.nodup_cons.mpr ⟨?_, hnodup⟩
            intro hmem
            obtain ⟨x, hx, hid⟩ := List.mem_map.mp hmem
            exact (hmain x hx).2 (hid ▸ List.mem_cons_self)

theorem unseen_eq_self {seen : List String}
    (hmain : ∀ e ∈ events, e.subagentId.isSome = false ∧ e.eventId ∉ seen)
    (hnodup : (events.map RuntimeEventEnvelope.eventId).Nodup) : unseen seen events = events := by
  induction events generalizing seen with
  | nil => rfl
  | cons e rest ih =>
      obtain ⟨hnew, hrest⟩ := List.nodup_cons.mp hnodup
      obtain ⟨hnone, hunseen⟩ := hmain e List.mem_cons_self
      rw [unseen, if_neg (by simp [hnone, hunseen])]
      congr 1
      refine ih (fun x hx => ?_) hrest
      obtain ⟨hx', hxunseen⟩ := hmain x (List.mem_cons_of_mem _ hx)
      refine ⟨hx', fun hseen => ?_⟩
      rcases List.mem_cons.mp hseen with hid | hseen
      · exact hnew (List.mem_map.mpr ⟨x, hx, hid⟩)
      · exact hxunseen hseen

theorem mainEvents_sorted (events : List RuntimeEventEnvelope) :
    (mainEvents events).Pairwise fun a b => a.sequenceNo ≤ b.sequenceNo := by
  have : IsTrans _ fun a b : RuntimeEventEnvelope => a.sequenceNo ≤ b.sequenceNo :=
    ⟨fun _ _ _ => le_trans⟩
  have : Std.Total fun a b : RuntimeEventEnvelope => a.sequenceNo ≤ b.sequenceNo :=
    ⟨fun a b => le_total a.sequenceNo b.sequenceNo⟩
  exact (List.pairwise_insertionSort _ events).sublist (unseen_spec [] _).1

variable {before : List RuntimeEventEnvelope}

/-- The events that came first are their own main events. -/
theorem mainEvents_of_append {rest : List RuntimeEventEnvelope}
    (h : mainEvents events = before ++ rest) : mainEvents before = before := by
  have hsorted := mainEvents_sorted events
  obtain ⟨_, hmain, hnodup⟩ := unseen_spec [] (TurnPartsProjection.ordered events)
  change ∀ e ∈ mainEvents events, _ at hmain
  change ((mainEvents events).map _).Nodup at hnodup
  rw [h] at hsorted hmain hnodup
  have hordered : TurnPartsProjection.ordered before = before :=
    (List.pairwise_append.mp hsorted).1.insertionSort_eq
  rw [mainEvents, hordered]
  refine unseen_eq_self (fun e he => hmain e (List.mem_append_left _ he)) ?_
  rw [List.map_append] at hnodup
  exact (List.nodup_append.mp hnodup).1

theorem turnOf_kept (events : List RuntimeEventEnvelope) :
    (turnOf events).Kept (mainEvents events) := by
  have hstart : Turn.start.Kept [] :=
    ⟨⟨rfl, by simp [Turn.start, Turn.spans], by simp [Turn.start, Turn.spans],
      by simp [Turn.start, Turn.spans]⟩, fun s hs => by cases hs⟩
  exact hstart.foldl (mainEvents events)

/-- The texts of the text parts. -/
def textParts (parts : List TurnPart) : List String :=
  (parts.filter fun p => p.kind = .text).map TurnPart.text

/-- The parts of a turn are its spans. -/
theorem view_spans (h : t.Kept events) :
    t.view.map (fun v => (v.1, v.2.1)) = t.spans.map fun s => (s.kind, s.text) := by
  have houtline : t.outline.map (fun o => (o.kind, o.text)) =
      t.spans.map fun s => (s.kind, s.text) := by
    cases hopened : t.opened <;>
      simp [Turn.outline, Turn.spans, hopened, Span.outline, Passage.outline, Span.text,
        Function.comp_def]
  have hall : t.outline.filter (fun o => o.text ≠ "") = t.outline := by
    refine List.filter_eq_self.mpr fun o ho => ?_
    have hmem : (o.kind, o.text) ∈ t.outline.map fun o => (o.kind, o.text) :=
      List.mem_map.mpr ⟨o, ho, rfl⟩
    rw [houtline] at hmem
    obtain ⟨s, hs, heq⟩ := List.mem_map.mp hmem
    have htext := h.keeps.text_ne hs
    rw [(Prod.mk.inj heq).2] at htext
    simpa using htext
  rw [Turn.view, hall, List.map_map, ← houtline]
  rfl

theorem textParts_fold (createdAtMs : String → Option Int) (events : List RuntimeEventEnvelope) :
    textParts (TurnPartsProjection.fold createdAtMs events) = (turnOf events).texts := by
  have hspans := view_spans (turnOf_kept events)
  rw [← fold_view createdAtMs, List.map_map] at hspans
  have htexts := congrArg (fun l : List (TurnPartKind × String) =>
    (l.filter fun v => v.1 = .text).map Prod.snd) hspans
  simpa [textParts, Turn.texts, Turn.textSpans, List.filter_map, Function.comp_def, TurnPart.view]
    using htexts

/-- A final response that repeats what the main agent said since the last card. -/
structure Repeats (events before said : List RuntimeEventEnvelope) (final : RuntimeEventEnvelope)
    (after : List RuntimeEventEnvelope) : Prop where
  order : mainEvents events = before ++ said ++ final :: after
  fromCard : before = [] ∨ ∃ earlier card, before = earlier ++ [card] ∧ speech card = .card
  noCard : ∀ e ∈ said, speech e ≠ .card
  told : Texts said
  closes : speech final = .final
  text : finalText final = spoken said
  last : ∀ e ∈ after, ¬ IsText e ∧ ¬ Answers e

theorem spoken_ne {said : List RuntimeEventEnvelope} (h : Texts said) : spoken said ≠ "" := by
  obtain ⟨e, he, htext⟩ := h
  have hmem : e ∈ said.filter fun e => speech e = .delta .text :=
    List.mem_filter.mpr ⟨he, decide_eq_true htext⟩
  obtain ⟨a, b, hsplit⟩ := List.append_of_mem hmem
  unfold spoken
  rw [hsplit]
  simp [String.join_append, payloadText_of_delta htext]

/-- The turn up to the last card is closed, and the next final response does not look into it. -/
theorem turnOf_card
    (h : before = [] ∨ ∃ earlier card, before = earlier ++ [card] ∧ speech card = .card) :
    ∃ base finalized cardSinceProse, before.foldl Turn.step .start =
        (Turn.fresh finalized cardSinceProse).under base ∧
      (Turn.fresh finalized cardSinceProse).Apart base := by
  rcases h with rfl | ⟨earlier, card, rfl, hcard⟩
  · exact ⟨[], false, false, rfl, .inl rfl⟩
  · let t := earlier.foldl Turn.step .start
    refine ⟨t.spans, t.finalized, true, ?_, .inr (.inl rfl)⟩
    rw [List.foldl_concat]
    simp [Turn.step, hcard, Turn.close, Turn.under, Turn.fresh, t]

theorem texts_under (base : List Span) (t : Turn) :
    (t.under base).texts = ((base.filter fun s => s.kind = .text).map Span.text) ++ t.texts := by
  simp [Turn.texts, Turn.textSpans, Turn.under_spans]

/-- The texts since the last card are those of a turn of its own. -/
theorem Repeats.texts {said after : List RuntimeEventEnvelope}
    (h : Repeats events before said final after) :
    ∃ t, Stage said t ∧ t.Kept said ∧
      ((∀ e ∈ said, speech e ≠ .final) → Counted said t) ∧
      (turnOf events).texts = (turnOf before).texts ++ (t.step final).texts := by
  obtain ⟨base, finalized, cardSinceProse, hbefore, hapart⟩ := turnOf_card h.fromCard
  let fresh := Turn.fresh finalized cardSinceProse
  have hstage : Stage [] fresh := .quiet (by simp [Texts]) (by simp [Ends]) (by
    simp [fresh, Turn.fresh, Turn.kinds, Turn.spans])
  have hkept : fresh.Kept [] :=
    ⟨⟨rfl, by simp [fresh, Turn.fresh, Turn.spans], by simp [fresh, Turn.fresh, Turn.spans],
      by simp [fresh, Turn.fresh, Turn.spans]⟩, fun s hs => by cases hs⟩
  have hcounted : Counted [] fresh := by
    constructor <;> simp [fresh, Turn.fresh, Turn.kinds, Turn.spans, Texts, Resumes, Paused]
  obtain ⟨hunder, hapart'⟩ := Turn.foldl_under hapart h.noCard
  have hfinal : speech final ≠ .card := by simp [h.closes]
  refine ⟨said.foldl Turn.step fresh, hstage.foldl h.noCard, hkept.foldl said, ?_, ?_⟩
  · exact fun hfinals => hcounted.foldl fun e he => ⟨h.noCard e he, hfinals e he⟩
  · have hmain : mainEvents before = before :=
      mainEvents_of_append (h.order.trans (List.append_assoc _ _ _))
    unfold turnOf
    rw [h.order, hmain, List.foldl_append, List.foldl_append, List.foldl_cons,
      Turn.foldl_texts _ h.last, hbefore, hunder, (Turn.step_under hapart' hfinal).1, texts_under,
      texts_under]
    simp [Turn.fresh, Turn.texts, Turn.textSpans, Turn.spans, fresh]

namespace Sample

def event (sequenceNo : Int) (eventType message : String) : RuntimeEventEnvelope :=
  ⟨eventType, "run", sequenceNo, eventType, none, none, .obj [("message", .str message)], none, ""⟩

def text : RuntimeEventEnvelope := event 1 "model_delta" "Done."

def thought : RuntimeEventEnvelope := event 2 "reasoning_summary_delta" "Check the result."

def answer : RuntimeEventEnvelope := event 3 "final_response" "Done."

end Sample

end CopilotRuntime.Transcript
