import SnapshotLedger.Redaction.Policy

/-!
# Redacting fields

Redaction keeps the shape of what it is given: names, keys, lengths, kinds and nulls stay. A key that is masked
hides every other leaf below it behind the marker; texts under no such key are scrubbed. Any failure of the
policy is the answer to the whole.
-/

namespace SnapshotLedger.Redaction.Policy

mutual

/-- A value under keys of which some are masked or none is. -/
def redact (p : Redaction.Policy) (masked : Bool) : Rendered → Except Redaction.Error Rendered
  | .null => .ok .null
  | .bool b => .ok (if masked then .text p.marker else .bool b)
  | .integer n => .ok (if masked then .text p.marker else .integer n)
  | .float x => .ok (if masked then .text p.marker else .float x)
  | .text s =>
    if masked then .ok (.text p.marker)
    else do
      let scrubbed ← p.scrub s
      .ok (.text (scrubbed.getD s))
  | .sequence vs => do
    let vs ← redactItems p masked vs
    .ok (.sequence vs)
  | .mapping es => do
    let es ← redactEntries p masked es
    .ok (.mapping es)
  | .object kind names es => do
    let es ← redactEntries p masked es
    .ok (.object kind names es)

/-- The items of a sequence, which are under the same keys as the sequence. -/
def redactItems (p : Redaction.Policy) (masked : Bool) : List Rendered → Except Redaction.Error (List Rendered)
  | [] => .ok []
  | v :: vs => do
    let v ← redact p masked v
    let vs ← redactItems p masked vs
    .ok (v :: vs)

/-- Entries, each of which is under its own key as well. -/
def redactEntries (p : Redaction.Policy) (masked : Bool) :
    List (String × Rendered) → Except Redaction.Error (List (String × Rendered))
  | [] => .ok []
  | (k, v) :: es => do
    let here ← if masked then .ok true else p.hides k
    let v ← redact p here v
    let es ← redactEntries p masked es
    .ok ((k, v) :: es)

end

/-- The fields with everything hidden that the policy hides. -/
def applyTo (p : Redaction.Policy) (fields : Fields) : Except Redaction.Error Fields :=
  redactEntries p false fields

end SnapshotLedger.Redaction.Policy
