import SnapshotLedger.Proofs.Answers
import SnapshotLedger.Proofs.Template.Cut
import SnapshotLedger.Proofs.Template.Paths
import SnapshotLedger.Rendering

/-!
# What a template is rendered to

A template is cut before anything in it is looked up; each of its stretches is then replaced by a text of its
own, and the texts are put in as they are, one after the other. Which text a stretch is replaced by
(`Part.Gives`) and why there is none for it (`Part.Fails`) depends on nothing else in the template. The leftmost
stretch that fails is blamed for the whole (`render_eq_error_iff`).
-/

namespace SnapshotLedger.Template

variable {vars : Variables} {context : Context} {template : String}

/-! ## Stretches -/

/-- The text that a stretch of a template is replaced by. -/
inductive Part.Gives (vars : Variables) (context : Context) : Part → List Char → Prop where
  | text (s : List Char) : Gives vars context (.text s) s
  | comment (body : List Char) : Gives vars context (.tag .comment body) []
  | expression {body : List Char} {text : String} (path : IsDotted (Text.trimChars body))
      (refers : Refers vars context (Text.trimChars body) text) : Gives vars context (.tag .expression body) text.toList

/-- Why nothing can be put in for a stretch of a template. -/
inductive Part.Fails (vars : Variables) (context : Context) (template : String) : Part → Template.Error → Prop where
  | unclosed (kind : TagKind) (body : List Char) :
      Fails vars context template (.unclosed kind body) (.malformed template (.unclosed (String.ofList kind.closing)))
  | empty {body : List Char} (h : Text.trimChars body = []) :
      Fails vars context template (.tag .expression body) (.malformed template .emptyExpression)
  | unsupported {body : List Char} (h : Text.trimChars body ≠ []) (path : ¬IsDotted (Text.trimChars body)) :
      Fails vars context template (.tag .expression body)
        (.malformed template (.unsupported (String.ofList (Text.trimChars body))))
  | undefined {body : List Char} (path : IsDotted (Text.trimChars body))
      (h : ∀ text, ¬Refers vars context (Text.trimChars body) text) :
      Fails vars context template (.tag .expression body) (.undefined (String.ofList (Text.trimChars body)))

/-- What comes of a stretch of a template. -/
def Part.value (vars : Variables) (context : Context) (template : String) : Part → Except Template.Error (List Char)
  | .text s => .ok s
  | .tag .expression body => evaluate vars context template body
  | .tag .comment _ => .ok []
  | .unclosed kind _ => .error (.malformed template (.unclosed (String.ofList kind.closing)))

/-- An expression that names something is replaced by its text. -/
theorem evaluate_eq_ok {body : List Char} {text : String} (path : IsDotted (Text.trimChars body))
    (refers : Refers vars context (Text.trimChars body) text) :
    evaluate vars context template body = .ok text.toList := by
  have hnonempty : (Text.trimChars body).isEmpty = false := List.isEmpty_eq_false_iff.2 path.ne_nil
  simp only [evaluate, hnonempty, isPath_iff.2 path, (resolve?_eq_some_iff path).2 refers, Bool.not_true,
    Bool.false_eq_true, if_false]

/-- A stretch that has a text comes to that text. -/
theorem Part.Gives.value_eq {p : Part} {out : List Char} (h : p.Gives vars context out) :
    p.value vars context template = .ok out := by
  cases h with
  | text s => rfl
  | comment body => rfl
  | expression path refers => exact evaluate_eq_ok path refers

/-- A stretch that fails comes to its error. -/
theorem Part.Fails.value_eq {p : Part} {e : Template.Error} (h : p.Fails vars context template e) :
    p.value vars context template = .error e := by
  cases h with
  | unclosed kind body => rfl
  | empty h => simp [Part.value, evaluate, h]
  | unsupported h path =>
    rw [← isPath_iff, Bool.not_eq_true] at path
    simp [Part.value, evaluate, h, path]
  | undefined path h =>
    have hnone : resolve? vars context (Text.trimChars _) = none :=
      Option.eq_none_iff_forall_ne_some.2 fun text heq => h text ((resolve?_eq_some_iff path).1 heq)
    simp [Part.value, evaluate, path.ne_nil, isPath_iff.2 path, hnone]

/-- A stretch has a text or fails. -/
theorem Part.gives_or_fails (vars : Variables) (context : Context) (template : String) (p : Part) :
    (∃ out, p.Gives vars context out) ∨ ∃ e, p.Fails vars context template e := by
  match p with
  | .text s => exact .inl ⟨s, .text s⟩
  | .tag .comment body => exact .inl ⟨[], .comment body⟩
  | .unclosed kind body => exact .inr ⟨_, .unclosed kind body⟩
  | .tag .expression body =>
    by_cases hempty : Text.trimChars body = []
    · exact .inr ⟨_, .empty hempty⟩
    by_cases hpath : IsDotted (Text.trimChars body)
    · by_cases hrefers : ∃ text, Refers vars context (Text.trimChars body) text
      · obtain ⟨text, hrefers⟩ := hrefers
        exact .inl ⟨text.toList, .expression hpath hrefers⟩
      · exact .inr ⟨_, .undefined hpath fun text h => hrefers ⟨text, h⟩⟩
    · exact .inr ⟨_, .unsupported hempty hpath⟩

theorem Part.value_eq_ok_iff {p : Part} {out : List Char} :
    p.value vars context template = .ok out ↔ p.Gives vars context out := by
  refine ⟨fun h => ?_, Part.Gives.value_eq⟩
  rcases Part.gives_or_fails vars context template p with ⟨out', hgives⟩ | ⟨e, hfails⟩
  · rw [hgives.value_eq] at h
    cases h
    exact hgives
  · rw [hfails.value_eq] at h
    cases h

theorem Part.value_eq_error_iff {p : Part} {e : Template.Error} :
    p.value vars context template = .error e ↔ p.Fails vars context template e := by
  refine ⟨fun h => ?_, Part.Fails.value_eq⟩
  rcases Part.gives_or_fails vars context template p with ⟨out', hgives⟩ | ⟨e', hfails⟩
  · rw [hgives.value_eq] at h
    cases h
  · rw [hfails.value_eq] at h
    cases h
    exact hfails

/-! ## Templates -/

/-- Characters that stand for themselves come to themselves. -/
theorem mapM_literal (s : List Char) :
    (s.map Segment.literal).mapM (renderSegment vars context template) = .ok (s.map fun c => [c]) := by
  rw [mapM_eq_ok_iff, List.forall₂_map_left_iff, List.forall₂_map_right_iff, List.forall₂_same]
  intro c _
  rfl

/-- The parts that a stretch is scanned as come to what the stretch comes to. -/
theorem mapM_segments (vars : Variables) (context : Context) (template : String) (p : Part) :
    (p.segments.mapM (renderSegment vars context template)).map List.flatten = p.value vars context template := by
  match p with
  | .text s =>
    rw [Part.segments, mapM_literal, Part.value]
    exact congrArg Except.ok (List.flatMap_singleton' s)
  | .tag .comment body => rfl
  | .unclosed .expression body => rfl
  | .unclosed .comment body => rfl
  | .tag .expression body =>
    rw [Part.segments, List.mapM_cons, TagKind.segment, renderSegment, Part.value]
    cases evaluate vars context template body with
    | error e => rfl
    | ok out => exact congrArg Except.ok (List.append_nil out)

theorem hasStatement_iff {s : List Char} : hasStatement s = true ↔ ['{', '%'] <:+: s := Text.occursIn_iff

/-- Outside of statements a template comes to what its parts come to, one after the other. -/
theorem render_eq_mapM (hnone : ¬['{', '%'] <:+: template.toList) :
    render vars context template =
      ((segments template.toList).mapM (renderSegment vars context template)).map fun texts =>
        String.ofList texts.flatten := by
  rw [render, if_neg]
  · rfl
  · rw [hasStatement_iff]
    exact hnone

/-- Outside of statements a template comes to what its stretches come to, one after the other. -/
theorem render_eq {parts : List Part} (h : Cut template.toList parts) (hnone : ¬['{', '%'] <:+: template.toList) :
    render vars context template =
      (parts.mapM (Part.value vars context template)).map fun texts => String.ofList texts.flatten := by
  have hscanned : render vars context template =
      (((segments template.toList).mapM (renderSegment vars context template)).map List.flatten).map String.ofList := by
    rw [render_eq_mapM hnone]
    cases (segments template.toList).mapM (renderSegment vars context template) <;> rfl
  rw [hscanned, h.segments_eq, mapM_flatMap (mapM_segments vars context template)]
  cases parts.mapM (Part.value vars context template) <;> rfl

/-- A template with a statement is refused for it. -/
theorem render_of_statement (h : ['{', '%'] <:+: template.toList) :
    render vars context template = .error (.malformed template .statementBlock) := by
  rw [render, if_pos (hasStatement_iff.2 h)]

/-- What a template is rendered to is what its stretches are replaced by, in their order. -/
theorem render_eq_ok_iff {parts : List Part} (h : Cut template.toList parts) {out : String} :
    render vars context template = .ok out ↔ ¬['{', '%'] <:+: template.toList ∧
      ∃ texts, List.Forall₂ (Part.Gives vars context) parts texts ∧ out = String.ofList texts.flatten := by
  by_cases hs : ['{', '%'] <:+: template.toList
  · rw [render_of_statement hs]
    exact ⟨nofun, fun hok => absurd hs hok.1⟩
  · have hvalues : ∀ texts, parts.mapM (Part.value vars context template) = .ok texts ↔
        List.Forall₂ (Part.Gives vars context) parts texts := by
      intro texts
      simp only [mapM_eq_ok_iff, Part.value_eq_ok_iff]
    rw [render_eq h hs]
    constructor
    · intro hok
      obtain ⟨texts, htexts, heq⟩ := map_eq_ok hok
      exact ⟨hs, texts, (hvalues texts).1 htexts, heq.symm⟩
    · rintro ⟨-, texts, htexts, rfl⟩
      rw [(hvalues texts).2 htexts]
      rfl

/-- The error about a template is about statements, or else about the leftmost stretch that fails. -/
theorem render_eq_error_iff {parts : List Part} (h : Cut template.toList parts) {e : Template.Error} :
    render vars context template = .error e ↔
      ['{', '%'] <:+: template.toList ∧ e = .malformed template .statementBlock ∨
      ¬['{', '%'] <:+: template.toList ∧ ∃ front part back, parts = front ++ part :: back ∧
        (∀ p ∈ front, ∃ text, p.Gives vars context text) ∧ part.Fails vars context template e := by
  by_cases hs : ['{', '%'] <:+: template.toList
  · rw [render_of_statement hs]
    constructor
    · intro herror
      exact .inl ⟨hs, (Except.error.inj herror).symm⟩
    · rintro (⟨-, rfl⟩ | ⟨hnone, -⟩)
      · rfl
      · exact absurd hs hnone
  · have hmap : render vars context template = .error e ↔ parts.mapM (Part.value vars context template) = .error e := by
      rw [render_eq h hs]
      cases parts.mapM (Part.value vars context template) <;> simp [Except.map]
    rw [hmap, mapM_eq_error_iff]
    simp only [Part.value_eq_ok_iff, Part.value_eq_error_iff, hs, false_and, not_false_eq_true, true_and, false_or]

/-- A stretch has a text if it is no tag without an end and, where it is an expression, names something. -/
theorem Part.gives_iff {p : Part} :
    (∃ out, p.Gives vars context out) ↔ (∀ kind body, p ≠ .unclosed kind body) ∧
      ∀ body, p = .tag .expression body →
        IsDotted (Text.trimChars body) ∧ ∃ text, Refers vars context (Text.trimChars body) text := by
  constructor
  · rintro ⟨out, hgives⟩
    cases hgives with
    | text s => exact ⟨nofun, nofun⟩
    | comment body => exact ⟨nofun, nofun⟩
    | expression path refers =>
      refine ⟨nofun, fun body heq => ?_⟩
      cases heq
      exact ⟨path, _, refers⟩
  · rintro ⟨hclosed, hexpression⟩
    match p with
    | .text s => exact ⟨s, .text s⟩
    | .tag .comment body => exact ⟨[], .comment body⟩
    | .tag .expression body =>
      obtain ⟨path, text, refers⟩ := hexpression body rfl
      exact ⟨text.toList, .expression path refers⟩
    | .unclosed kind body => exact absurd rfl (hclosed kind body)

/-- All stretches have texts if no tag is without an end and every expression names something. -/
theorem forall_gives_iff {parts : List Part} :
    (∀ p ∈ parts, ∃ text, p.Gives vars context text) ↔
      (∀ kind body, .unclosed kind body ∉ parts) ∧ ∀ body, .tag .expression body ∈ parts →
        IsDotted (Text.trimChars body) ∧ ∃ text, Refers vars context (Text.trimChars body) text := by
  simp only [Part.gives_iff]
  constructor
  · intro hall
    exact ⟨fun kind body hmem => (hall _ hmem).1 kind body rfl, fun body hmem => (hall _ hmem).2 body rfl⟩
  · rintro ⟨hclosed, hexpression⟩ p hp
    exact ⟨fun kind body heq => hclosed kind body (heq ▸ hp), fun body heq => hexpression body (heq ▸ hp)⟩

/-- A template can be rendered when it has no statement, its tags are closed and its expressions name something. -/
theorem render_succeeds_iff {parts : List Part} (h : Cut template.toList parts) :
    (∃ out, render vars context template = .ok out) ↔ ¬['{', '%'] <:+: template.toList ∧
      (∀ kind body, .unclosed kind body ∉ parts) ∧ ∀ body, .tag .expression body ∈ parts →
        IsDotted (Text.trimChars body) ∧ ∃ text, Refers vars context (Text.trimChars body) text := by
  rw [← forall_gives_iff, ← exists_forall₂_iff]
  simp only [render_eq_ok_iff h]
  constructor
  · rintro ⟨out, hnone, texts, htexts, -⟩
    exact ⟨hnone, texts, htexts⟩
  · rintro ⟨hnone, texts, htexts⟩
    exact ⟨_, hnone, texts, htexts, rfl⟩

/-- A text has marks when a tag opens in it or a statement begins. -/
theorem hasMarks_iff {s : String} :
    hasMarks s = true ↔ ['{', '%'] <:+: s.toList ∨ ∃ kind : TagKind, kind.opening <:+: s.toList := by
  simp only [hasMarks, hasStatement, Bool.or_eq_true, Text.occursIn_iff]
  constructor
  · rintro ((h | h) | h)
    · exact .inr ⟨.expression, h⟩
    · exact .inl h
    · exact .inr ⟨.comment, h⟩
  · rintro (h | ⟨_ | _, h⟩)
    · exact .inl (.inr h)
    · exact .inl (.inl h)
    · exact .inr h

/-- A text without marks is rendered to itself. -/
theorem render_of_hasMarks (h : hasMarks template = false) : render vars context template = .ok template := by
  rw [← Bool.not_eq_true, hasMarks_iff, not_or, not_exists] at h
  rw [render_eq_ok_iff (.text h.2)]
  exact ⟨h.1, [template.toList], .cons (.text _) .nil, by simp⟩

/-- Leaving out the engine for texts without marks changes nothing. -/
theorem renderText_eq (depthLimit : Nat) (field : String) :
    Renderer.renderText ⟨render vars context, depthLimit⟩ field true template =
      ((render vars context template).map .text).mapError (.template field) := by
  rw [Renderer.renderText, Bool.true_and]
  split
  · simp only
    cases render vars context template <;> rfl
  · next hmarks =>
    rw [render_of_hasMarks (Bool.not_eq_true _ ▸ hmarks)]
    rfl

/-- A template is cut in one way, without regard to what anything in it refers to. It is rendered exactly when
it has no statement, all of its tags are closed and each of its expressions is a path that refers to something;
then what stands outside of tags and what the expressions refer to is put in as it is, in the order of the
template. Otherwise the error is about statements if there are any, and else about the leftmost stretch that
fails. A text without marks is rendered to itself, so that a field for which the engine is left out is rendered
to what the engine gives. -/
theorem render_follows_cut (vars : Variables) (context : Context) (template : String) :
    ∃ parts, Cut template.toList parts ∧ (∀ parts', Cut template.toList parts' → parts' = parts) ∧
      ((∃ out, render vars context template = .ok out) ↔ ¬['{', '%'] <:+: template.toList ∧
        (∀ kind body, .unclosed kind body ∉ parts) ∧ ∀ body, .tag .expression body ∈ parts →
          IsDotted (Text.trimChars body) ∧ ∃ text, Refers vars context (Text.trimChars body) text) ∧
      (∀ out, render vars context template = .ok out ↔ ¬['{', '%'] <:+: template.toList ∧
        ∃ texts, List.Forall₂ (Part.Gives vars context) parts texts ∧ out = String.ofList texts.flatten) ∧
      (∀ e, render vars context template = .error e ↔
        ['{', '%'] <:+: template.toList ∧ e = .malformed template .statementBlock ∨
        ¬['{', '%'] <:+: template.toList ∧ ∃ front part back, parts = front ++ part :: back ∧
          (∀ p ∈ front, ∃ text, p.Gives vars context text) ∧ part.Fails vars context template e) ∧
      (hasMarks template = false → render vars context template = .ok template) ∧
      ∀ depthLimit field, Renderer.renderText ⟨render vars context, depthLimit⟩ field true template =
        ((render vars context template).map .text).mapError (.template field) := by
  obtain ⟨parts, hcut⟩ := exists_cut template.toList
  exact ⟨parts, hcut, fun parts' hcut' => hcut'.unique hcut rfl, render_succeeds_iff hcut,
    fun _ => render_eq_ok_iff hcut, fun _ => render_eq_error_iff hcut, render_of_hasMarks,
    fun depthLimit field => renderText_eq depthLimit field⟩

/-- A context with an array in which a string has marks of tags in it. -/
def markedContext : Context := ⟨[("u", .object [("items", .array [.string "\x7b\x7bx\x7d\x7d#\x7d", .integer 7])])]⟩

/-- A template that refers to a variable and to the array, behind a comment with a mark in it. -/
def markedTemplate : String :=
  "\x7b# \x7b\x7b #\x7d\x7b\x7b var.value.x \x7d\x7d|\x7b\x7bu.items.0\x7d\x7d|" ++
    "\x7b\x7b u.items.01 \x7d\x7d|\x7b\x7bu.items\x7d\x7d"

/-- Variables and strings of the context are put in with the marks that they have, an item is found by its
number, and an array is put in as JSON. -/
theorem render_puts_in_values :
    render (fun _ => some "\x7b\x7by\x7d\x7d") markedContext markedTemplate =
        .ok "\x7b\x7by\x7d\x7d|\x7b\x7bx\x7d\x7d#\x7d|7|[\"\x7b\x7bx\x7d\x7d#\x7d\",7]" ∧
      ∃ parts texts, Cut markedTemplate.toList parts ∧
        List.Forall₂ (Part.Gives (fun _ => some "\x7b\x7by\x7d\x7d") markedContext) parts texts ∧
        String.ofList texts.flatten = "\x7b\x7by\x7d\x7d|\x7b\x7bx\x7d\x7d#\x7d|7|[\"\x7b\x7bx\x7d\x7d#\x7d\",7]" := by
  have hrender : render (fun _ => some "\x7b\x7by\x7d\x7d") markedContext markedTemplate =
      .ok "\x7b\x7by\x7d\x7d|\x7b\x7bx\x7d\x7d#\x7d|7|[\"\x7b\x7bx\x7d\x7d#\x7d\",7]" := by decide +kernel
  obtain ⟨parts, hcut, -, -, hok, -⟩ :=
    render_follows_cut (fun _ => some "\x7b\x7by\x7d\x7d") markedContext markedTemplate
  obtain ⟨-, texts, hgives, hout⟩ := (hok _).1 hrender
  exact ⟨hrender, parts, texts, hcut, hgives, hout.symm⟩

end SnapshotLedger.Template
