import SnapshotLedger.Text.Search

/-!
# The parts of a template

A template is cut, from left to right, into characters that stand for themselves, expressions between double
braces, and comments between a brace and a hash. A tag ends at the first closing mark behind its opening mark,
whatever stands between them; so what an expression is replaced by is never looked at again.
-/

namespace SnapshotLedger.Template

/-- A part of a template. -/
inductive Segment where
  | literal (c : Char)
  | expression (body : List Char)
  | comment (body : List Char)
  /-- An expression without an end. -/
  | openExpression (body : List Char)
  /-- A comment without an end. -/
  | openComment (body : List Char)
  deriving DecidableEq, Repr

/-- Where in a template a place is: outside of all tags, or in a tag whose characters so far are given from the
last to the first. -/
inductive Place where
  | outside
  | inExpression (body : List Char)
  | inComment (body : List Char)
  deriving DecidableEq, Repr

/-- The parts of a template from a place on. -/
def segmentsFrom : Place → List Char → List Segment
  | .outside, [] => []
  | .outside, '{' :: '{' :: r => segmentsFrom (.inExpression []) r
  | .outside, '{' :: '#' :: r => segmentsFrom (.inComment []) r
  | .outside, c :: r => .literal c :: segmentsFrom .outside r
  | .inExpression body, [] => [.openExpression body.reverse]
  | .inExpression body, '}' :: '}' :: r => .expression body.reverse :: segmentsFrom .outside r
  | .inExpression body, c :: r => segmentsFrom (.inExpression (c :: body)) r
  | .inComment body, [] => [.openComment body.reverse]
  | .inComment body, '#' :: '}' :: r => .comment body.reverse :: segmentsFrom .outside r
  | .inComment body, c :: r => segmentsFrom (.inComment (c :: body)) r

/-- The parts of a template. -/
def segments (s : List Char) : List Segment := segmentsFrom .outside s

/-- Whether a text has the opening mark of a statement. -/
def hasStatement (s : List Char) : Bool := Text.occursIn ['{', '%'] s

/-- Whether a text has an opening mark of any kind. -/
def hasMarks (s : String) : Bool :=
  Text.occursIn ['{', '{'] s.toList || hasStatement s.toList || Text.occursIn ['{', '#'] s.toList

end SnapshotLedger.Template
