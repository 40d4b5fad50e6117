import SnapshotLedger.Main
import SnapshotLedger.Proofs.Calendar.Display
import SnapshotLedger.Proofs.CommandLine.Capture
import SnapshotLedger.Proofs.CommandLine.LogicalDate
import SnapshotLedger.Proofs.Recorder.Readable
import SnapshotLedger.Proofs.Redaction.Registration
import SnapshotLedger.Proofs.Redaction.Repetition
import SnapshotLedger.Proofs.Rendered.Documents
import SnapshotLedger.Proofs.Rendered.RoundTrip
import SnapshotLedger.Proofs.Rendering.Depth
import SnapshotLedger.Proofs.Rendering.Owner
import SnapshotLedger.Proofs.Rendering.PlainData
import SnapshotLedger.Proofs.Settings
import SnapshotLedger.Proofs.Store.Acceptance
import SnapshotLedger.Proofs.Store.Commuting
import SnapshotLedger.Proofs.Store.WriteBack
import SnapshotLedger.Proofs.Template.Concatenation
import SnapshotLedger.Rendered.Display
