import SnapshotLedger.Rendered.Value

/-!
# Redaction policies

A policy says which keys hide what stands under them and which texts carry a secret. It may be unable to say so,
and then nothing may be shown.
-/

namespace SnapshotLedger

/-- Why a policy cannot be made or cannot decide. -/
inductive Redaction.Error where
  | blankPattern
  | emptyMarker
  | unavailable (text : String)
  deriving DecidableEq, Repr

/-- The error in words. -/
def Redaction.Error.message : Redaction.Error → String
  | blankPattern => "invalid redaction pattern: sensitive field name patterns MUST be non-empty"
  | emptyMarker => "invalid redaction pattern: mask marker MUST be non-empty"
  | unavailable text => "redaction policy unavailable: " ++ text

/-- The marker that stands for hidden values unless another one is chosen. -/
def usualMarker : String := "***"

/-- A way to decide what is hidden. -/
structure Redaction.Policy where
  /-- Whether a key hides everything under it. -/
  hides : String → Except Redaction.Error Bool
  /-- Whether a text is a secret. -/
  isSecret : String → Except Redaction.Error Bool
  /-- What stands for hidden values. -/
  marker : String
  /-- The text that replaces one with secrets in it; none for a text without. -/
  scrub : String → Except Redaction.Error (Option String)

/-- A policy that hides exactly the texts that are secrets, each as a whole. -/
def Redaction.Policy.exact (hides isSecret : String → Except Redaction.Error Bool) : Redaction.Policy where
  hides := hides
  isSecret := isSecret
  marker := usualMarker
  scrub text := do
    if ← isSecret text then .ok (some usualMarker) else .ok none

end SnapshotLedger
