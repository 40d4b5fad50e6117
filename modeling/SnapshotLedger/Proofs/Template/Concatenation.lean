import SnapshotLedger.Proofs.Template.Rendering

/-!
# One template behind another

A template that can be rendered has no tag that what follows it could close, so the scanner begins anew where it
ends (`Cut.segments_append`). Only a brace at its end may become part of an opening mark (`Joins`). Otherwise
two templates in a row are rendered one after the other (`render_append`), and what is wrong with the second one
is wrong with both.
-/

namespace SnapshotLedger.Template

/-- An opening mark is put together where one text follows another: the one ends with a brace, and the other
begins with a character that makes a mark of it. -/
def Joins (s t : List Char) : Prop :=
  ∃ front c back, s = front ++ ['{'] ∧ t = c :: back ∧ (c = '{' ∨ c = '#' ∨ c = '%')

theorem joins_cons_iff {s t : List Char} {c : Char} :
    Joins s (c :: t) ↔ (∃ front, s = front ++ ['{']) ∧ (c = '{' ∨ c = '#' ∨ c = '%') := by
  constructor
  · rintro ⟨front, d, back, hs, ht, hd⟩
    obtain ⟨rfl, rfl⟩ := List.cons.inj ht
    exact ⟨⟨front, hs⟩, hd⟩
  · rintro ⟨⟨front, rfl⟩, hc⟩
    exact ⟨front, c, t, rfl, rfl, hc⟩

/-- A text ends as what it ends with. -/
theorem Joins.append {s t : List Char} (h : Joins s t) (front : List Char) : Joins (front ++ s) t := by
  obtain ⟨before, c, back, rfl, rfl, hc⟩ := h
  exact ⟨front ++ before, c, back, (List.append_assoc _ _ _).symm, rfl, hc⟩

/-- Where no mark is put together, a tag that opens at the front of the two texts opens in the first of them. -/
theorem opening_infix_of_front {c : Char} {s t : List Char} (hapart : ¬Joins (c :: s) t) {kind : TagKind}
    (h : kind.opening <+: c :: (s ++ t)) : kind.opening <:+: c :: s := by
  obtain ⟨d, hd, hmark⟩ : ∃ d, (d = '{' ∨ d = '#' ∨ d = '%') ∧ kind.opening = ['{', d] := by
    cases kind <;> simp [TagKind.opening]
  rw [hmark] at h ⊢
  obtain ⟨rfl, hbehind⟩ := List.cons_prefix_cons.1 h
  cases s with
  | nil =>
    obtain ⟨back, rfl⟩ := hbehind
    exact absurd ⟨[], d, back, rfl, rfl, hd⟩ hapart
  | cons b s =>
    obtain ⟨rfl, -⟩ := List.cons_prefix_cons.1 hbehind
    exact ⟨[], s, rfl⟩

section Apart

variable {s t : List Char} (hapart : ¬Joins s t)

include hapart

/-- Where no mark is put together, two texts in a row have a statement when one of them has. -/
theorem statement_append_iff : ['{', '%'] <:+: s ++ t ↔ ['{', '%'] <:+: s ∨ ['{', '%'] <:+: t := by
  rw [Text.pair_infix_append_iff]
  constructor
  · rintro (h | h | ⟨front, back, rfl, rfl⟩)
    · exact .inl h
    · exact .inr h
    · exact absurd ⟨front, _, back, rfl, rfl, .inr (.inr rfl)⟩ hapart
  · rintro (h | h)
    · exact .inl h
    · exact .inr (.inl h)

/-- A text without opening marks stands for itself, whatever follows it. -/
theorem segmentsFrom_text_append (h : ∀ kind : TagKind, ¬kind.opening <:+: s) :
    segmentsFrom .outside (s ++ t) = s.map .literal ++ segmentsFrom .outside t := by
  induction s with
  | nil => rfl
  | cons c s ih =>
    have hhere : ∀ mark ∈ TagKind.openings, ¬mark <+: c :: (s ++ t) := by
      intro mark hmem hfront
      obtain ⟨kind, rfl⟩ := TagKind.mem_openings hmem
      exact h kind (opening_infix_of_front hapart hfront)
    rw [List.cons_append, segmentsFrom_literal hhere, ih]
    · rfl
    · intro hjoins
      exact hapart (hjoins.append [c])
    · intro kind hin
      exact h kind (List.infix_cons hin)

/-- What the scanner makes of two texts in a row is what it makes of the one and then of the other, when all
tags of the first are closed. -/
theorem Cut.segments_append {parts : List Part} (h : Cut s parts)
    (hclosed : ∀ kind body, Part.unclosed kind body ∉ parts) :
    Template.segments (s ++ t) = Template.segments s ++ Template.segments t := by
  unfold Template.segments
  induction h with
  | text hnone => rw [segmentsFrom_text_append hapart hnone, segmentsFrom_text hnone]
  | unclosed => exact absurd (List.mem_cons_of_mem _ (List.mem_singleton_self _)) (hclosed _ _)
  | @tag front body rest kind parts opens closes _ ih =>
    have hrest : segmentsFrom .outside (rest ++ t) = segmentsFrom .outside rest ++ segmentsFrom .outside t := by
      apply ih
      · intro hjoins
        apply hapart
        rw [← List.append_assoc, ← List.append_assoc]
        exact hjoins.append _
      · intro kind' body' hmem
        exact hclosed kind' body' (List.mem_cons_of_mem _ (List.mem_cons_of_mem _ hmem))
    -- the tag opens and closes where it did
    have opens' := opens.append (fun _ => TagKind.length_of_mem_openings) t
    have closes' := closes.append (fun _ => TagKind.length_of_mem_closing) t
    rw [List.append_assoc (body ++ kind.closing)] at opens'
    rw [List.append_assoc (front ++ kind.opening), List.append_assoc (body ++ kind.closing), segmentsFrom_front opens',
      segmentsFrom_body closes', hrest, segmentsFrom_front opens, segmentsFrom_body closes]
    simp

end Apart

/-! ## Errors about another template -/

/-- The same error about another template: where a template is quoted, it is that one. -/
def Error.about (template : String) : Error → Error
  | malformed _ fault => malformed template fault
  | undefined expression => undefined expression
  | engine text => engine text

variable {vars : Variables} {context : Context}

/-- A part comes to the same in every template, or to the same error about it. -/
theorem renderSegment_about (template template' : String) (part : Segment) :
    (renderSegment vars context template part).mapError (Error.about template') =
      renderSegment vars context template' part := by
  cases part with
  | literal c => rfl
  | comment body => rfl
  | openExpression body => rfl
  | openComment body => rfl
  | expression body =>
    simp only [renderSegment, evaluate]
    split
    · rfl
    split
    · rfl
    · cases resolve? vars context (Text.trimChars body) <;> rfl

/-- Parts come to the same in every template, or to the same error about it. -/
theorem mapM_renderSegment_about (vars : Variables) (context : Context) (template template' : String)
    (parts : List Segment) :
    (parts.mapM (renderSegment vars context template)).mapError (Error.about template') =
      parts.mapM (renderSegment vars context template') := by
  rw [mapError_mapM]
  simp only [renderSegment_about]

/-! ## Rendering -/

/-- Rendering concatenates. Behind a template that can be rendered, and with which no opening mark is put
together, another one is rendered to what it is rendered to by itself; and if it cannot be rendered, then both
in a row fail with the same error about them. -/
theorem render_append {a b x : String} (ha : render vars context a = .ok x) (hapart : ¬Joins a.toList b.toList) :
    (∀ y, render vars context b = .ok y → render vars context (a ++ b) = .ok (x ++ y)) ∧
      ∀ e, render vars context b = .error e → render vars context (a ++ b) = .error (e.about (a ++ b)) := by
  obtain ⟨parts, hcut⟩ := exists_cut a.toList
  obtain ⟨hnone, hclosed, -⟩ := (render_succeeds_iff hcut).1 ⟨x, ha⟩
  have hsegments := hcut.segments_append hapart hclosed
  have hstatement := statement_append_iff hapart
  rw [← String.toList_append] at hsegments hstatement
  rw [render_eq_mapM hnone] at ha
  obtain ⟨texts, htexts, rfl⟩ := map_eq_ok ha
  have hfirst : (segments a.toList).mapM (renderSegment vars context (a ++ b)) = .ok texts := by
    rw [← mapM_renderSegment_about vars context a, htexts]
    rfl
  by_cases hb : ['{', '%'] <:+: b.toList
  · rw [render_of_statement hb, render_of_statement (hstatement.2 (.inr hb))]
    refine ⟨nofun, ?_⟩
    rintro e ⟨⟩
    rfl
  · have hboth : ¬['{', '%'] <:+: (a ++ b).toList := by
      rw [hstatement]
      exact not_or.2 ⟨hnone, hb⟩
    have hsecond := mapM_renderSegment_about vars context b (a ++ b) (segments b.toList)
    rw [render_eq_mapM hb, render_eq_mapM hboth, hsegments, List.mapM_append, hfirst, ← hsecond]
    cases (segments b.toList).mapM (renderSegment vars context b) with
    | error e =>
      refine ⟨nofun, ?_⟩
      rintro e' ⟨⟩
      rfl
    | ok texts' =>
      refine ⟨?_, nofun⟩
      rintro y ⟨⟩
      simp [Except.mapError, Except.map, bind, Except.bind, pure, Except.pure]

/-- A brace before a blank opens nothing, whether the text behind it can be rendered or not. -/
theorem render_append_of_brace :
    render (fun _ => some "v") ⟨[]⟩ ("\x7b\x7b var.value.n \x7d\x7d\x7b" ++ " \x7b\x7b var.value.n \x7d\x7d") =
        .ok ("v\x7b" ++ " v") ∧
      render (fun _ => some "v") ⟨[]⟩ ("\x7b\x7b var.value.n \x7d\x7d\x7b" ++ " \x7b\x7b ds \x7d\x7d") =
        .error (.undefined "ds") := by
  have ha : render (fun _ => some "v") ⟨[]⟩ "\x7b\x7b var.value.n \x7d\x7d\x7b" = .ok "v\x7b" := by decide
  constructor
  · exact (render_append ha (fun h => absurd (joins_cons_iff.1 h).2 (by decide))).1 " v" (by decide)
  · exact (render_append ha (fun h => absurd (joins_cons_iff.1 h).2 (by decide))).2 (.undefined "ds") (by decide)

end SnapshotLedger.Template
