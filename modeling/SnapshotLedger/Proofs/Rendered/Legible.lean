import SnapshotLedger.Proofs.Json.Depth
import SnapshotLedger.Proofs.Rendered.Strings

/-!
# Which rendered values are read from their text

What is written of a value is legible when its leaves are written as what they are (`legible_toJson`). Its
levels are those of the value, where an object has two, one for its members and one for its attributes, and
depend on the shape alone (`nesting_shape`). A text that is not in the leaves of fields is hidden in the text
that they are stored as (`Fields.hiddenIn_compact`).
-/

namespace SnapshotLedger

namespace Rendered

/-! ## Legible documents -/

/-- Strings are legible. -/
theorem legibleItems_strings (names : List String) : Json.LegibleItems (names.map Json.string) := by
  induction names with
  | nil => trivial
  | cons name names ih => exact ⟨by simp only [Json.Legible], ih⟩

mutual

/-- What is written of a value is legible when its leaves are written as what they are. -/
theorem legible_toJson : (v : Rendered) → ∀ {path : List String},
    (∀ leaf ∈ v.leaves path, leaf.2.Writable) → v.toJson.Legible
  | null, _, _ | bool _, _, _ | text _, _, _ => by simp only [toJson, Json.Legible]
  | integer n, path, h => by
    have hfits := (h (path, integer n) (List.mem_singleton.2 rfl)).signed n rfl
    simp only [Json.fitsSigned, Bool.and_eq_true, decide_eq_true_eq] at hfits
    simp only [toJson, Json.Legible]
    exact ⟨hfits.1, Int.le_trans hfits.2 (by decide)⟩
  | float x, _, _ => by
    rw [toJson]
    split
    · next hfinite =>
      simp only [Json.Legible]
      exact hfinite
    · simp only [Json.Legible]
  | sequence vs, _, h => by
    simp only [toJson, Json.Legible]
    exact legible_itemsToJson vs h
  | mapping es, _, h => by
    simp only [toJson, Json.Legible]
    exact legible_entriesToJson es h
  | object _ names es, _, h => by
    simp only [toJson, Json.Legible, Json.LegibleMembers, true_and, and_true]
    exact ⟨legibleItems_strings names, legible_entriesToJson es h⟩

/-- What is written of items is legible when their leaves are written as what they are. -/
theorem legible_itemsToJson : (vs : List Rendered) → ∀ {path : List String},
    (∀ leaf ∈ leavesItems path vs, leaf.2.Writable) → Json.LegibleItems (itemsToJson vs)
  | [], _, _ => trivial
  | v :: vs, _, h => by
    obtain ⟨hfirst, hrest⟩ := List.forall_mem_append.1 h
    exact ⟨legible_toJson v hfirst, legible_itemsToJson vs hrest⟩

/-- What is written of entries is legible when their leaves are written as what they are. -/
theorem legible_entriesToJson : (es : List (String × Rendered)) → ∀ {path : List String},
    (∀ leaf ∈ leavesEntries path es, leaf.2.Writable) → Json.LegibleMembers (entriesToJson es)
  | [], _, _ => trivial
  | (_, v) :: es, _, h => by
    obtain ⟨hfirst, hrest⟩ := List.forall_mem_append.1 h
    exact ⟨legible_toJson v hfirst, legible_entriesToJson es hrest⟩

end

/-! ## Levels -/

/-- Strings have no levels. -/
theorem nestingItems_strings (names : List String) : Json.nestingItems (names.map Json.string) = 0 := by
  induction names with
  | nil => rfl
  | cons name names ih => simp only [List.map_cons, Json.nestingItems, Json.nesting, ih, Nat.max_self]

/-- The levels of an object are two more than those of its attributes. -/
theorem nesting_object (kind : String) (names : List String) (es : List (String × Rendered)) :
    (object kind names es).toJson.nesting = Json.nestingMembers (entriesToJson es) + 2 := by
  simp only [toJson, Json.nesting, Json.nestingMembers, nestingItems_strings]
  omega

mutual

/-- The levels of a value depend on its shape. -/
theorem nesting_shape : (v : Rendered) → v.shape.toJson.nesting = v.toJson.nesting
  | null | bool _ | integer _ | text _ => rfl
  | float x => by
    rw [shape, toJson, toJson]
    split <;> rfl
  | sequence vs => by simp only [shape, toJson, Json.nesting, nesting_shapeItems vs]
  | mapping es => by simp only [shape, toJson, Json.nesting, nesting_shapeEntries es]
  | object kind names es => by rw [shape, nesting_object, nesting_object, nesting_shapeEntries es]

/-- The levels of items depend on their shapes. -/
theorem nesting_shapeItems : (vs : List Rendered) →
    Json.nestingItems (itemsToJson (shapeItems vs)) = Json.nestingItems (itemsToJson vs)
  | [] => rfl
  | v :: vs => by simp only [shapeItems, itemsToJson, Json.nestingItems, nesting_shape v, nesting_shapeItems vs]

/-- The levels of entries depend on the shapes of their values. -/
theorem nesting_shapeEntries : (es : List (String × Rendered)) →
    Json.nestingMembers (entriesToJson (shapeEntries es)) = Json.nestingMembers (entriesToJson es)
  | [] => rfl
  | (k, v) :: es => by simp only [shapeEntries, entriesToJson, Json.nestingMembers, nesting_shape v,
      nesting_shapeEntries es]

end

/-- Items have no more levels than each of them may have. -/
theorem nestingItems_le {vs : List Rendered} {levels : Nat} (h : ∀ v ∈ vs, v.toJson.nesting ≤ levels) :
    Json.nestingItems (itemsToJson vs) ≤ levels := by
  induction vs with
  | nil => exact Nat.zero_le levels
  | cons v vs ih =>
    obtain ⟨hfirst, hrest⟩ := List.forall_mem_cons.1 h
    exact Nat.max_le.2 ⟨hfirst, ih hrest⟩

/-- Entries have no more levels than each of their values may have. -/
theorem nestingMembers_le {es : List (String × Rendered)} {levels : Nat} (h : ∀ e ∈ es, e.2.toJson.nesting ≤ levels) :
    Json.nestingMembers (entriesToJson es) ≤ levels := by
  induction es with
  | nil => exact Nat.zero_le levels
  | cons e es ih =>
    obtain ⟨hfirst, hrest⟩ := List.forall_mem_cons.1 h
    exact Nat.max_le.2 ⟨hfirst, ih hrest⟩

end Rendered

namespace Fields

/-- All numbers in the fields are written as what they are. -/
def Writable (fields : Fields) : Prop := ∀ leaf ∈ Rendered.leavesEntries [] fields, leaf.2.Writable

/-- The fields are written as a legible document when their numbers are written as what they are. -/
theorem Writable.legible {fields : Fields} (h : fields.Writable) : (toJson fields).Legible := by
  simp only [toJson, Json.Legible]
  exact Rendered.legible_entriesToJson fields h

/-! ## Hiding -/

/-- A text holds fields and hides a part. It is the compact text of the fields, no string of which has the part
in it apart from labels. It can be read when it is not nested too deeply, and every string that is then read is
a label of the fields or has no such part in it. -/
structure HiddenIn (fields : Fields) (part text : String) : Prop where
  text_eq : text = (toJson fields).compact
  lacks : fields.Lacks part
  readable_iff : (∃ doc, Json.read text = .ok doc) ↔ (toJson fields).nesting ≤ Json.deepest
  strings : ∀ doc, Json.read text = .ok doc → ∀ s ∈ doc.strings,
    s ∈ Rendered.labelsEntries fields ∨ Text.contains s part = false

/-- What fields lack is hidden in their text. -/
theorem hiddenIn_compact {fields : Fields} {part : String} (hwritable : fields.Writable) (h : fields.Lacks part) :
    fields.HiddenIn part (toJson fields).compact where
  text_eq := rfl
  lacks := h
  readable_iff := Json.exists_read_compact_iff hwritable.legible
  strings doc hdoc s hs := by
    have hwritten := Json.strings_of_read_compact hwritable.legible hdoc s hs
    exact (Rendered.mem_stringsMembers_toJson fields hwritten).imp id (h s)

end Fields

end SnapshotLedger
