import SnapshotLedger.Proofs.Text.Search
import SnapshotLedger.Template.Segment

/-!
# How a template is cut

A template is text up to its first opening mark; the tag that opens there ends at the first closing mark of its
kind behind the opening one, whatever stands between them; and what follows is a template again (`Cut`). Every
text can be cut so, in one way only (`exists_cut`, `Cut.unique`), and that is how the scanner takes it apart
(`Cut.segments_eq`).
-/

namespace SnapshotLedger.Template

/-- What a tag is for. -/
inductive TagKind where
  | expression
  | comment
  deriving DecidableEq, Repr

namespace TagKind

/-- The mark that a tag begins with. -/
def opening : TagKind → List Char
  | expression => ['{', '{']
  | comment => ['{', '#']

/-- The mark that a tag ends with. -/
def closing : TagKind → List Char
  | expression => ['}', '}']
  | comment => ['#', '}']

/-- All the marks that tags begin with. -/
def openings : List (List Char) := [expression.opening, comment.opening]

theorem opening_mem (kind : TagKind) : kind.opening ∈ openings := by cases kind <;> simp [openings]

theorem mem_openings {mark : List Char} (h : mark ∈ openings) : ∃ kind : TagKind, mark = kind.opening := by
  rcases List.mem_cons.1 h with rfl | h
  · exact ⟨expression, rfl⟩
  · exact ⟨comment, List.mem_singleton.1 h⟩

theorem length_of_mem_openings {mark : List Char} (h : mark ∈ openings) : mark.length = 2 := by
  obtain ⟨kind, rfl⟩ := mem_openings h
  cases kind <;> rfl

theorem opening_injective {kind kind' : TagKind} (h : kind.opening = kind'.opening) : kind = kind' := by
  cases kind <;> cases kind' <;> simp_all [opening]

theorem length_of_mem_closing {kind : TagKind} {mark : List Char} (h : mark ∈ [kind.closing]) : mark.length = 2 := by
  rw [List.mem_singleton.1 h]
  cases kind <;> rfl

/-- The place in a tag whose characters so far are given from the last to the first. -/
def place : TagKind → List Char → Place
  | expression => .inExpression
  | comment => .inComment

/-- The part that a tag is. -/
def segment : TagKind → List Char → Segment
  | expression => .expression
  | comment => .comment

/-- The part that a tag without an end is. -/
def openSegment : TagKind → List Char → Segment
  | expression => .openExpression
  | comment => .openComment

end TagKind

/-- A stretch of a template: text outside of the tags, a tag, or the tag at the end that is not closed. -/
inductive Part where
  | text (s : List Char)
  | tag (kind : TagKind) (body : List Char)
  | unclosed (kind : TagKind) (body : List Char)
  deriving DecidableEq, Repr

/-- The stretches of a template, from the left to the right. -/
inductive Cut : List Char → List Part → Prop where
  | text {s : List Char} (h : ∀ kind : TagKind, ¬kind.opening <:+: s) : Cut s [.text s]
  | unclosed {front body : List Char} {kind : TagKind} (opens : Text.IsFirst TagKind.openings front kind.opening body)
      (h : ¬kind.closing <:+: body) : Cut (front ++ kind.opening ++ body) [.text front, .unclosed kind body]
  | tag {front body rest : List Char} {kind : TagKind} {parts : List Part}
      (opens : Text.IsFirst TagKind.openings front kind.opening (body ++ kind.closing ++ rest))
      (closes : Text.IsFirst [kind.closing] body kind.closing rest) (behind : Cut rest parts) :
      Cut (front ++ kind.opening ++ (body ++ kind.closing ++ rest)) (.text front :: .tag kind body :: parts)

/-! ## There is one way to cut a template -/

/-- Every text can be cut. -/
theorem exists_cut (s : List Char) : ∃ parts, Cut s parts := by
  -- what follows a tag is shorter than the template with the tag
  induction h : s.length using Nat.strongRecOn generalizing s with
  | ind n ih =>
    by_cases hopen : ∃ mark ∈ TagKind.openings, mark <:+: s
    · obtain ⟨front, mark, behind, rfl, opens⟩ := Text.IsFirst.exists_of_infix hopen
      obtain ⟨kind, rfl⟩ := TagKind.mem_openings opens.1
      by_cases hclose : kind.closing <:+: behind
      · obtain ⟨body, mark, rest, rfl, closes⟩ :=
          Text.IsFirst.exists_of_infix ⟨kind.closing, List.mem_singleton_self _, hclose⟩
        obtain rfl := List.mem_singleton.1 closes.1
        have hshorter : rest.length < n := by
          have htwo := TagKind.length_of_mem_openings opens.1
          simp only [List.length_append] at h
          omega
        obtain ⟨parts, hparts⟩ := ih rest.length hshorter rest rfl
        exact ⟨_, .tag opens closes hparts⟩
      · exact ⟨_, .unclosed opens hclose⟩
    · exact ⟨_, .text fun kind hin => hopen ⟨kind.opening, kind.opening_mem, hin⟩⟩

/-- An opening mark stands in the text that it opens a tag of. -/
theorem opening_infix (front : List Char) (kind : TagKind) (behind : List Char) :
    kind.opening <:+: front ++ kind.opening ++ behind := ⟨front, behind, rfl⟩

/-- A tag that opens first is the only one that does. -/
theorem opens_unique {front front' behind behind' : List Char} {kind kind' : TagKind}
    (opens : Text.IsFirst TagKind.openings front kind.opening behind)
    (opens' : Text.IsFirst TagKind.openings front' kind'.opening behind')
    (h : front ++ kind.opening ++ behind = front' ++ kind'.opening ++ behind') :
    front = front' ∧ kind = kind' ∧ behind = behind' := by
  obtain ⟨hfront, hmark, hbehind⟩ := opens.unique (fun _ => TagKind.length_of_mem_openings) opens' h
  exact ⟨hfront, TagKind.opening_injective hmark, hbehind⟩

/-- No text can be cut in two ways. -/
theorem Cut.unique {s t : List Char} {parts parts' : List Part} (h : Cut s parts) (h' : Cut t parts') (hst : s = t) :
    parts = parts' := by
  induction h generalizing t parts' with
  | text hnone =>
    cases h' with
    | text => rw [hst]
    | unclosed => exact absurd (hst ▸ opening_infix _ _ _) (hnone _)
    | tag => exact absurd (hst ▸ opening_infix _ _ _) (hnone _)
  | unclosed opens hnone =>
    cases h' with
    | text hnone' => exact absurd (hst ▸ opening_infix _ _ _) (hnone' _)
    | unclosed opens' =>
      obtain ⟨rfl, rfl, rfl⟩ := opens_unique opens opens' hst
      rfl
    | tag opens' =>
      obtain ⟨rfl, rfl, rfl⟩ := opens_unique opens opens' hst
      exact absurd ⟨_, _, rfl⟩ hnone
  | tag opens closes _ ih =>
    cases h' with
    | text hnone' => exact absurd (hst ▸ opening_infix _ _ _) (hnone' _)
    | unclosed opens' hnone' =>
      obtain ⟨rfl, rfl, rfl⟩ := opens_unique opens opens' hst
      exact absurd ⟨_, _, rfl⟩ hnone'
    | tag opens' closes' behind' =>
      obtain ⟨rfl, rfl, hbehind⟩ := opens_unique opens opens' hst
      obtain ⟨rfl, -, hrest⟩ := closes.unique (fun _ => TagKind.length_of_mem_closing) closes' hbehind
      rw [ih behind' hrest]

/-! ## The scanner takes a template apart as it is cut -/

/-- What the scanner makes of a stretch. -/
def Part.segments : Part → List Segment
  | .text s => s.map .literal
  | .tag kind body => [kind.segment body]
  | .unclosed kind body => [kind.openSegment body]

/-- A character that no tag opens at stands for itself. -/
theorem segmentsFrom_literal {c : Char} {s : List Char} (h : ∀ mark ∈ TagKind.openings, ¬mark <+: c :: s) :
    segmentsFrom .outside (c :: s) = .literal c :: segmentsFrom .outside s := by
  rw [segmentsFrom]
  · rintro r rfl rfl
    exact h _ (TagKind.opening_mem .expression) ⟨r, rfl⟩
  · rintro r rfl rfl
    exact h _ (TagKind.opening_mem .comment) ⟨r, rfl⟩

/-- An opening mark leads into its tag. -/
theorem segmentsFrom_opening (kind : TagKind) (s : List Char) :
    segmentsFrom .outside (kind.opening ++ s) = segmentsFrom (kind.place []) s := by
  cases kind <;> simp only [TagKind.opening, TagKind.place, List.cons_append, List.nil_append, segmentsFrom]

/-- A character of a tag that its closing mark does not begin with belongs to what stands in the tag. -/
theorem segmentsFrom_place_cons {kind : TagKind} {c : Char} {s : List Char} (h : ¬kind.closing <+: c :: s)
    (body : List Char) :
    segmentsFrom (kind.place body) (c :: s) = segmentsFrom (kind.place (c :: body)) s := by
  cases kind with
  | expression =>
    rw [TagKind.place, segmentsFrom]
    rintro r rfl rfl
    exact h ⟨r, rfl⟩
  | comment =>
    rw [TagKind.place, segmentsFrom]
    rintro r rfl rfl
    exact h ⟨r, rfl⟩

/-- A closing mark leads out of its tag. -/
theorem segmentsFrom_closing (kind : TagKind) (body s : List Char) :
    segmentsFrom (kind.place body) (kind.closing ++ s) = kind.segment body.reverse :: segmentsFrom .outside s := by
  cases kind <;>
    simp only [TagKind.closing, TagKind.place, TagKind.segment, List.cons_append, List.nil_append, segmentsFrom]

/-- Before the first opening mark every character stands for itself. -/
theorem segmentsFrom_front {front behind : List Char} {kind : TagKind}
    (opens : Text.IsFirst TagKind.openings front kind.opening behind) :
    segmentsFrom .outside (front ++ kind.opening ++ behind) =
      front.map .literal ++ segmentsFrom (kind.place []) behind := by
  induction front with
  | nil => exact segmentsFrom_opening kind behind
  | cons c front ih =>
    have hhere := segmentsFrom_literal fun mark hmem => opens.not_prefix hmem
    rw [List.cons_append, List.cons_append, hhere, ih opens.tail]
    rfl

/-- A text without opening marks stands for itself. -/
theorem segmentsFrom_text {s : List Char} (h : ∀ kind : TagKind, ¬kind.opening <:+: s) :
    segmentsFrom .outside s = s.map .literal := by
  induction s with
  | nil => rfl
  | cons c s ih =>
    have hhere : ∀ mark ∈ TagKind.openings, ¬mark <+: c :: s := by
      rintro mark hmem hfront
      obtain ⟨kind, rfl⟩ := TagKind.mem_openings hmem
      exact h kind hfront.isInfix
    rw [segmentsFrom_literal hhere, ih fun kind hin => h kind (List.infix_cons hin), List.map_cons]

/-- A tag ends at its first closing mark. -/
theorem segmentsFrom_body {body rest : List Char} {kind : TagKind}
    (closes : Text.IsFirst [kind.closing] body kind.closing rest) (before : List Char) :
    segmentsFrom (kind.place before) (body ++ kind.closing ++ rest) =
      kind.segment (before.reverse ++ body) :: segmentsFrom .outside rest := by
  induction body generalizing before with
  | nil => rw [List.nil_append, segmentsFrom_closing, List.append_nil]
  | cons c body ih =>
    have hnot := closes.not_prefix (List.mem_singleton_self _)
    rw [List.cons_append, List.cons_append, segmentsFrom_place_cons hnot, ih closes.tail, List.reverse_cons,
      List.append_assoc]
    rfl

/-- A tag without a closing mark takes the whole rest of the template. -/
theorem segmentsFrom_unclosed {kind : TagKind} {body : List Char} (h : ¬kind.closing <:+: body) (before : List Char) :
    segmentsFrom (kind.place before) body = [kind.openSegment (before.reverse ++ body)] := by
  induction body generalizing before with
  | nil => cases kind <;> simp only [TagKind.place, TagKind.openSegment, segmentsFrom, List.append_nil]
  | cons c body ih =>
    rw [List.infix_cons_iff, not_or] at h
    rw [segmentsFrom_place_cons h.1, ih h.2, List.reverse_cons, List.append_assoc]
    rfl

/-- The scanner makes of a template what it makes of the stretches, one after the other. -/
theorem Cut.segments_eq {s : List Char} {parts : List Part} (h : Cut s parts) :
    Template.segments s = parts.flatMap Part.segments := by
  rw [Template.segments]
  induction h with
  | text h => rw [segmentsFrom_text h, List.flatMap_singleton, Part.segments]
  | unclosed opens h =>
    rw [segmentsFrom_front opens, segmentsFrom_unclosed h]
    rfl
  | tag opens closes _ ih =>
    rw [segmentsFrom_front opens, segmentsFrom_body closes, ih]
    rfl

end SnapshotLedger.Template
