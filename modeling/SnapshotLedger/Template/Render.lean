import SnapshotLedger.Template.Context
import SnapshotLedger.Template.Segment
import SnapshotLedger.Text.Quoted
import SnapshotLedger.Text.Search

/-!
# Rendering templates

An expression is a path of names. A path below `var.value` asks for a variable, every other one for a value of
the context; a text is put in as it is and any other value as JSON. Statements are refused wherever they stand,
and of several faulty tags the leftmost is blamed.
-/

namespace SnapshotLedger

/-- What is wrong with the form of a template. -/
inductive TemplateFault where
  | statementBlock
  | unclosed (closing : String)
  | emptyExpression
  | unsupported (expression : String)
  deriving DecidableEq, Repr

/-- The fault in words. -/
def TemplateFault.reason : TemplateFault → String
  | statementBlock => "statement blocks are not supported"
  | unclosed closing => "unclosed tag, expected `" ++ closing ++ "`"
  | emptyExpression => "empty expression"
  | unsupported expression => "unsupported expression `" ++ expression ++ "`"

/-- Why a template cannot be rendered. -/
inductive Template.Error where
  /-- The template has not the form of one. -/
  | malformed (template : String) (fault : TemplateFault)
  /-- An expression refers to nothing. -/
  | undefined (expression : String)
  /-- The engine does not work. -/
  | engine (text : String)
  deriving DecidableEq, Repr

/-- The error in words. -/
def Template.Error.message : Template.Error → String
  | malformed template fault => "template syntax error in " ++ Text.quoted template ++ ": " ++ fault.reason
  | undefined expression => "undefined template reference: " ++ expression
  | engine text => "template engine failure: " ++ text

/-- The values of variables by their names. -/
abbrev Variables := String → Option String

/-- An engine renders a template or says why it cannot. -/
abbrev Engine := String → Except Template.Error String

namespace Template

/-- What the paths of variables start with. -/
def variableStem : List Char := "var.value.".toList

/-- Whether a character may stand in a name of a path. -/
def isNameChar (c : Char) : Bool := c.isAlphanum || c = '_' || c = '-'

/-- Whether an expression is a path of names, none of them empty. -/
def isPath (expression : List Char) : Bool :=
  (Text.splitAt '.' expression).all fun name => !name.isEmpty && name.all isNameChar

/-- The text that a value is put in as. -/
def valueText : Json → String
  | .string s => s
  | v => v.compact

/-- What a path refers to. -/
def resolve? (vars : Variables) (context : Context) (path : List Char) : Option String :=
  if variableStem.isPrefixOf path then vars (String.ofList (path.drop variableStem.length))
  else (context.lookup (String.ofList path)).map valueText

/-- The value of an expression in a template. -/
def evaluate (vars : Variables) (context : Context) (template : String) (body : List Char) :
    Except Template.Error (List Char) :=
  let expression := Text.trimChars body
  if expression.isEmpty then .error (.malformed template .emptyExpression)
  else if !isPath expression then .error (.malformed template (.unsupported (String.ofList expression)))
  else match resolve? vars context expression with
    | some text => .ok text.toList
    | none => .error (.undefined (String.ofList expression))

/-- What a part of a template is replaced by. -/
def renderSegment (vars : Variables) (context : Context) (template : String) :
    Segment → Except Template.Error (List Char)
  | .literal c => .ok [c]
  | .expression body => evaluate vars context template body
  | .comment _ => .ok []
  | .openExpression _ => .error (.malformed template (.unclosed "\x7d\x7d"))
  | .openComment _ => .error (.malformed template (.unclosed "#\x7d"))

/-- The template with its expressions replaced and its comments left out. -/
def render (vars : Variables) (context : Context) : Engine := fun template =>
  if hasStatement template.toList then .error (.malformed template .statementBlock)
  else do
    let parts ← (segments template.toList).mapM (renderSegment vars context template)
    .ok (String.ofList parts.flatten)

end Template

end SnapshotLedger
