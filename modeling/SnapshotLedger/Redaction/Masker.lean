import SnapshotLedger.Redaction.Policy
import SnapshotLedger.Settings
import SnapshotLedger.Sorting
import SnapshotLedger.Text.Ascii
import SnapshotLedger.Text.Search

/-!
# The masker

The policy used in practice. A key is masked when a sensitive pattern occurs in it, whatever the case of its
letters. Secrets are replaced by the marker wherever they occur in a text, longer ones first, so that a secret
which contains another is hidden whole. The secrets are kept in order and each of them once.
-/

namespace SnapshotLedger

/-- Sensitive patterns, secrets, and the marker that stands for both. -/
structure Masker where
  /-- The sensitive patterns, in lower case, each of them once. -/
  patterns : List String
  /-- The secrets, in order, each of them once. -/
  secrets : List String
  marker : String
  deriving DecidableEq, Repr, Inhabited

namespace Masker

/-- The patterns that some names stand for: without blanks around them, in lower case, each of them once. -/
def patternsOf : (seen : List String) → List String → Except Redaction.Error (List String)
  | seen, [] => .ok seen
  | seen, name :: r =>
    let pattern := Text.lower (Text.trim name)
    if pattern.isEmpty then .error .blankPattern
    else if seen.contains pattern then patternsOf seen r
    else patternsOf (seen ++ [pattern]) r

/-- The masker for some sensitive names and a marker. -/
def create (names : List String) (marker : String) : Except Redaction.Error Masker := do
  let patterns ← patternsOf [] names
  if marker.isEmpty then .error .emptyMarker
  .ok ⟨patterns, [], marker⟩

/-- The masker used when nothing is chosen. -/
def usual : Masker := ⟨usualSensitiveNames, [], usualMarker⟩

/-- The masker that settings ask for. -/
def ofSettings (s : Settings) : Except Redaction.Error Masker := create s.sensitiveNames s.marker

/-- The secrets with one more, in its place. -/
def insertSecret (secret : String) : List String → List String
  | [] => [secret]
  | s :: r => if secret < s then secret :: s :: r else if secret = s then s :: r else s :: insertSecret secret r

/-- The masker with one more secret. A blank text is no secret, for hiding it would spoil every text. -/
def withSecret (m : Masker) (secret : String) : Masker :=
  if Text.isBlank secret then m else { m with secrets := insertSecret secret m.secrets }

/-- Whether a sensitive pattern occurs in a name. -/
def isSensitive (m : Masker) (name : String) : Bool :=
  let lowered := Text.lower name
  m.patterns.any fun pattern => Text.contains lowered pattern

/-- Whether the value of a variable is to be a secret. -/
def isSecretVariable (m : Masker) (entry : String × String) : Bool := m.isSensitive entry.1 && !Text.isBlank entry.2

/-- The masker with the values of those variables as secrets whose names are sensitive, and the number of those
variables. -/
def withVariables (m : Masker) (entries : List (String × String)) : Masker × Nat :=
  let taken := entries.filter m.isSecretVariable
  (taken.foldl (fun m e => m.withSecret e.2) m, taken.length)

/-- Whether a secret is replaced before another: longer ones first, equally long ones in order. -/
def replacedBefore (s t : String) : Bool :=
  Text.utf8Length t.toList < Text.utf8Length s.toList || (Text.utf8Length s.toList = Text.utf8Length t.toList && s ≤ t)

/-- The text with every secret replaced by the marker, one secret after the other. -/
def replaceSecrets (m : Masker) (s : List Char) : List Char :=
  (Sorting.sortBy replacedBefore m.secrets).foldl (fun s secret => Text.replaceAll secret.toList m.marker.toList s) s

/-- The text that replaces one with secrets in it; none for a text that is left as it is. -/
def scrub (m : Masker) (s : String) : Option String :=
  let scrubbed := String.ofList (m.replaceSecrets s.toList)
  if scrubbed = s then none else some scrubbed

/-- The masker as a policy. It can always decide. -/
def policy (m : Masker) : Redaction.Policy where
  hides key := .ok (m.isSensitive key)
  isSecret s := .ok (m.secrets.contains s)
  marker := m.marker
  scrub s := .ok (m.scrub s)

end Masker

end SnapshotLedger
