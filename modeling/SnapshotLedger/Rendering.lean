import SnapshotLedger.Entries
import SnapshotLedger.Error
import SnapshotLedger.Raw.Value
import SnapshotLedger.Rendered.Value
import SnapshotLedger.Template.Render

/-!
# Rendering fields

Rendering turns the values of an owner's template fields into rendered values. Texts with marks of the template
language go through the engine; dates and timestamps become texts. Of an object nested in a value only the
declared template fields are resolved, and everything below another attribute is kept as it is.

Values may be nested up to a limit; an object counts twice, once for itself and once for its attributes.
-/

namespace SnapshotLedger

/-- An engine, and the deepest level that is rendered. -/
structure Renderer where
  engine : Engine
  depthLimit : Nat

namespace Renderer

/-- Refuses a level beyond the limit. -/
def checkDepth (r : Renderer) (depth : Nat) : Except LedgerError Unit :=
  if r.depthLimit < depth then .error (.depthExceeded r.depthLimit) else .ok ()

/-- A text, resolved where that is asked for and the text has marks. -/
def renderText (r : Renderer) (field : String) (resolve : Bool) (s : String) : Except LedgerError Rendered :=
  if resolve && Template.hasMarks s then
    match r.engine s with
    | .ok out => .ok (.text out)
    | .error e => .error (.template field e)
  else .ok (.text s)

/-- The names of the attributes that an object shows: its own list, then the template fields missing there. -/
def shownNames (templateFields shown : List String) : List String :=
  templateFields.foldl (fun names name => if names.contains name then names else names ++ [name]) shown

/-- The attributes of an object that have values, out of the results for all of them. A template field has to
have a value. -/
def pickAttributes (kind : String) (templateFields : List String)
    (results : List (String × Except LedgerError Rendered)) :
    List String → Except LedgerError (List (String × Rendered))
  | [] => .ok []
  | name :: names =>
    match results.lookup name with
    | some result => do
      let v ← result
      let es ← pickAttributes kind templateFields results names
      .ok ((name, v) :: es)
    | none =>
      if templateFields.contains name then .error (.missingField kind name)
      else pickAttributes kind templateFields results names

mutual

/-- A value at some depth below a field. -/
def renderFrom (r : Renderer) (field : String) (depth : Nat) (resolve : Bool) :
    Raw → Except LedgerError Rendered
  | .null => (r.checkDepth depth).map fun _ => .null
  | .bool b => (r.checkDepth depth).map fun _ => .bool b
  | .integer n => (r.checkDepth depth).map fun _ => .integer n
  | .float x => do
    r.checkDepth depth
    if x.isFinite then .ok (.float x) else .error (.invalidField (.notFinite field x))
  | .text s => do
    r.checkDepth depth
    r.renderText field resolve s
  | .date d => (r.checkDepth depth).map fun _ => .text d.text
  | .timestamp t => (r.checkDepth depth).map fun _ => .text t.display
  | .sequence vs => do
    r.checkDepth depth
    let vs ← renderItems r field (depth + 1) resolve vs
    .ok (.sequence vs)
  | .mapping es => do
    r.checkDepth depth
    let es ← renderEntries r field (depth + 1) resolve es
    .ok (.mapping es)
  | .object kind templateFields shown attributes => do
    r.checkDepth (depth + 1)
    let results := renderAttributes r field (depth + 2) resolve templateFields attributes
    let es ← pickAttributes kind templateFields results (shownNames templateFields shown)
    .ok (.object kind templateFields (Entries.ofList es))

/-- The items of a sequence. -/
def renderItems (r : Renderer) (field : String) (depth : Nat) (resolve : Bool) :
    List Raw → Except LedgerError (List Rendered)
  | [] => .ok []
  | v :: vs => do
    let v ← renderFrom r field depth resolve v
    let vs ← renderItems r field depth resolve vs
    .ok (v :: vs)

/-- The entries of a mapping. -/
def renderEntries (r : Renderer) (field : String) (depth : Nat) (resolve : Bool) :
    List (String × Raw) → Except LedgerError (List (String × Rendered))
  | [] => .ok []
  | (k, v) :: es => do
    let v ← renderFrom r field depth resolve v
    let es ← renderEntries r field depth resolve es
    .ok ((k, v) :: es)

/-- What each attribute of an object is rendered to; those that are no template fields are not resolved. -/
def renderAttributes (r : Renderer) (field : String) (depth : Nat) (resolve : Bool) (templateFields : List String) :
    List (String × Raw) → List (String × Except LedgerError Rendered)
  | [] => []
  | (k, v) :: es =>
    (k, renderFrom r field depth (resolve && templateFields.contains k) v) ::
      renderAttributes r field depth resolve templateFields es

end

/-- A value of a field. -/
def render (r : Renderer) (field : String) (v : Raw) : Except LedgerError Rendered :=
  r.renderFrom field 0 true v

/-- One template field of an owner. -/
def renderField (r : Renderer) (owner : Owner) (name : String) : Except LedgerError (String × Rendered) :=
  match owner.field? name with
  | some v => do
    let v ← r.render name v
    .ok (name, v)
  | none => .error (.missingField owner.kind name)

/-- The template fields of an owner. The first one that cannot be rendered is the answer to the whole. -/
def renderOwner (r : Renderer) (owner : Owner) : Except LedgerError Fields := do
  let es ← owner.templateFields.mapM (r.renderField owner)
  .ok (Entries.ofList es)

end Renderer

end SnapshotLedger
