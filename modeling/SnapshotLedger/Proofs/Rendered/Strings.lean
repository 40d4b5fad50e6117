import SnapshotLedger.Proofs.Json.Strings
import SnapshotLedger.Proofs.Json.WellFormed
import SnapshotLedger.Proofs.Redaction.Mask
import SnapshotLedger.Rendered.Encoding

/-!
# The strings of written values

The strings that a value is written with are its texts and the labels of its objects, which are the kinds and
the names of template fields, provided that its binary numbers are finite, for others are written as texts. Main
statements: without the labels a written value has a text in it only if one of its leaves has
(`not_contains_strings`), every string is one without the labels or a label (`mem_strings_toJson`), and the
numbers of a value read from a well-formed document are written as numbers (`leafwise_ofJson`).
-/

namespace SnapshotLedger

namespace Rendered

mutual

/-- The value without the labels of its objects: these have no kind, and declare no template fields. -/
def unlabelled : Rendered → Rendered
  | null => null
  | bool b => bool b
  | integer n => integer n
  | float x => float x
  | text s => text s
  | sequence vs => sequence (unlabelledItems vs)
  | mapping es => mapping (unlabelledEntries es)
  | object _ _ es => object "" [] (unlabelledEntries es)

/-- The items without labels. -/
def unlabelledItems : List Rendered → List Rendered
  | [] => []
  | v :: vs => unlabelled v :: unlabelledItems vs

/-- The entries without labels. -/
def unlabelledEntries : List (String × Rendered) → List (String × Rendered)
  | [] => []
  | (k, v) :: es => (k, unlabelled v) :: unlabelledEntries es

end

/-! ## Leaves of parts -/

/-- The leaves of items are those of each of them. -/
theorem mem_leavesItems {path : List String} {vs : List Rendered} {leaf : List String × Rendered} :
    leaf ∈ leavesItems path vs ↔ ∃ v ∈ vs, leaf ∈ v.leaves path :=
  mem_appended_iff rfl fun _ _ => rfl

/-- The leaves of entries are those of their values. -/
theorem mem_leavesEntries {path : List String} {es : List (String × Rendered)} {leaf : List String × Rendered} :
    leaf ∈ leavesEntries path es ↔ ∃ e ∈ es, leaf ∈ e.2.leaves (path ++ [e.1]) :=
  mem_appended_iff rfl fun _ _ => rfl

/-! ## Values leaf by leaf -/

/-- Something is true of all leaves of the value. -/
def Leafwise (p : Rendered → Prop) (v : Rendered) : Prop := ∀ path, ∀ leaf ∈ v.leaves path, p leaf.2

section Leafwise

variable {p : Rendered → Prop}

/-- What is true of a leaf is true of all leaves in it. -/
theorem leafwise_leaf {v : Rendered} (hleaf : v.shape = null) (h : p v) : v.Leafwise p := by
  intro path leaf hmem
  rw [leaves_of_shape_null hleaf, List.mem_singleton] at hmem
  rw [hmem]
  exact h

/-- What is true of all leaves of items is true of all leaves of their sequence. -/
theorem leafwise_sequence {vs : List Rendered} (h : ∀ v ∈ vs, v.Leafwise p) : (sequence vs).Leafwise p := by
  intro path leaf hmem
  obtain ⟨v, hv, hleaf⟩ := mem_leavesItems.1 hmem
  exact h v hv path leaf hleaf

/-- What is true of all leaves of values is true of all leaves of entries with these. -/
theorem leafwise_entries {es : List (String × Rendered)} (h : ∀ e ∈ es, e.2.Leafwise p) (path : List String) :
    ∀ leaf ∈ leavesEntries path es, p leaf.2 := by
  intro leaf hmem
  obtain ⟨e, he, hleaf⟩ := mem_leavesEntries.1 hmem
  exact h e he _ leaf hleaf

end Leafwise

/-! ## Values of documents -/

/-- Something is true of all leaves that are taken from no integer. -/
structure Admits (p : Rendered → Prop) : Prop where
  null : p null
  bool : ∀ b, p (bool b)
  text : ∀ s, p (text s)
  float : ∀ x : Binary64, x.isFinite = true → p (float x)

/-- What is true of everything is true of all leaves. -/
theorem admits_true : Admits fun _ => True := ⟨trivial, fun _ => trivial, fun _ => trivial, fun _ _ => trivial⟩

/-- What is true of the leaves of values is true of those of entries that are put in order. -/
theorem leafwise_ofList {p : Rendered → Prop} {es : List (String × Rendered)} (h : ∀ e ∈ es, e.2.Leafwise p) :
    ∀ e ∈ Entries.ofList es, e.2.Leafwise p :=
  fun e he => h e (Entries.mem_of_mem_ofList he)

/-- What is true of all leaves that may be read from well-formed documents. -/
structure AdmitsRead (p : Rendered → Prop) : Prop extends Admits p where
  integer : ∀ n, (Json.integer n).WellFormed → p (ofInteger n)

section Documents

variable {p : Rendered → Prop}

mutual

/-- What is true of the leaves that may be read is true of all leaves of a value read from a well-formed document. -/
theorem leafwise_ofJson (hp : AdmitsRead p) : (v : Json) → v.WellFormed → (ofJson v).Leafwise p
  | .null, _ => leafwise_leaf rfl hp.null
  | .bool b, _ => leafwise_leaf rfl (hp.bool b)
  | .string s, _ => leafwise_leaf rfl (hp.text s)
  | .float x, h => leafwise_leaf rfl (hp.float x h)
  | .integer n, h => by
    refine leafwise_leaf ?_ (hp.integer n h)
    rw [ofJson, ofInteger]
    split <;> rfl
  | .array items, h => leafwise_sequence (leafwise_itemsOfJson hp items h)
  | .object ms, h => by
    rw [ofJson]
    split
    · exact leafwise_entries (leafwise_attributesOfJson hp ms h.2)
    · exact leafwise_entries (leafwise_ofList (leafwise_entriesOfJson hp ms h.2))

/-- What is true of the leaves that may be read is true of all leaves of items read from well-formed documents. -/
theorem leafwise_itemsOfJson (hp : AdmitsRead p) : (items : List Json) → Json.WellFormedItems items →
    ∀ v ∈ itemsOfJson items, v.Leafwise p
  | [], _ => fun _ h => absurd h List.not_mem_nil
  | v :: vs, h => List.forall_mem_cons.2 ⟨leafwise_ofJson hp v h.1, leafwise_itemsOfJson hp vs h.2⟩

/-- What is true of the leaves that may be read is true of all leaves of entries read from well-formed members. -/
theorem leafwise_entriesOfJson (hp : AdmitsRead p) : (ms : List (String × Json)) → Json.WellFormedMembers ms →
    ∀ e ∈ entriesOfJson ms, e.2.Leafwise p
  | [], _ => fun _ h => absurd h List.not_mem_nil
  | (_, v) :: ms, h => List.forall_mem_cons.2 ⟨leafwise_ofJson hp v h.1, leafwise_entriesOfJson hp ms h.2⟩

/-- What is true of the leaves that may be read is true of all leaves of attributes read from well-formed members. -/
theorem leafwise_attributesOfJson (hp : AdmitsRead p) : (ms : List (String × Json)) → Json.WellFormedMembers ms →
    ∀ e ∈ attributesOfJson ms, e.2.Leafwise p
  | [], _ => fun _ h => absurd h List.not_mem_nil
  | (_, .object ms) :: r, h => by
    rw [attributesOfJson]
    split
    · exact leafwise_ofList (leafwise_entriesOfJson hp ms h.1.2)
    · exact leafwise_attributesOfJson hp r h.2
  | (_, .null) :: r, h | (_, .bool _) :: r, h | (_, .integer _) :: r, h | (_, .float _) :: r, h | (_, .string _) :: r, h
  | (_, .array _) :: r, h => leafwise_attributesOfJson hp r h.2

end

end Documents

/-! ## Values that are written as they are -/

/-- A leaf that is written as what it is: a binary number is finite, and an integer a signed word. -/
structure Writable (v : Rendered) : Prop where
  finite : ∀ x, v = float x → x.isFinite = true
  signed : ∀ n, v = integer n → Json.fitsSigned n = true

/-- Of leaves that are taken from no integer, all are written as what they are. -/
theorem admits_writable : Admits Writable where
  null := ⟨nofun, nofun⟩
  bool _ := ⟨nofun, nofun⟩
  text _ := ⟨nofun, nofun⟩
  float _ hx := ⟨fun _ hy => float.inj hy ▸ hx, nofun⟩

/-- All leaves that are read are written as what they are: an integer becomes a finite number where it does not
stay what it is. -/
theorem admitsRead_writable : AdmitsRead Writable where
  toAdmits := admits_writable
  integer n h := by
    unfold ofInteger
    split
    · next hfits => exact ⟨nofun, fun _ hm => integer.inj hm ▸ hfits⟩
    · refine admits_writable.float _ (Binary64.isFinite_ofInt ?_)
      have hsize : twoTo 64 = 18446744073709551616 := by decide
      simp only [Json.WellFormed, Json.leastInteger, Json.greatestUnsigned] at h
      omega

/-! ## Strings without labels -/

/-- A text is not in the leaf. -/
def LacksLeaf (part : String) (leaf : List String × Rendered) : Prop :=
  ∀ s, leaf.2 = text s → Text.contains s part = false

/-- Only the text without characters is part of it. -/
theorem not_contains_empty {part : String} (h : part.toList ≠ []) : Text.contains "" part = false := by
  have hempty : part.toList.isEmpty = false := by
    cases hpart : part.toList with
    | nil => exact absurd hpart h
    | cons c r => rfl
  exact hempty

variable {part : String}

mutual

/-- A text that is in no leaf is in none of the strings that the value is written with, its labels excepted. -/
theorem not_contains_strings (hpart : part.toList ≠ []) : (v : Rendered) → ∀ {path : List String},
    (∀ leaf ∈ v.leaves path, leaf.2.Writable ∧ LacksLeaf part leaf) →
    ∀ s ∈ v.unlabelled.toJson.strings, Text.contains s part = false
  | null, _, _ | bool _, _, _ | integer _, _, _ => fun _ hs => absurd hs List.not_mem_nil
  | float x, path, h => by
    intro s hs
    have hfinite := (h (path, float x) (List.mem_singleton.2 rfl)).1.finite x rfl
    rw [unlabelled, toJson, if_pos hfinite] at hs
    exact absurd hs List.not_mem_nil
  | text t, path, h => by
    intro s hs
    obtain rfl : s = t := List.mem_singleton.1 hs
    exact (h (path, text s) (List.mem_singleton.2 rfl)).2 s rfl
  | sequence vs, _, h => not_contains_stringsItems hpart vs h
  | mapping es, _, h => not_contains_stringsMembers hpart es h
  | object _ _ es, _, h => by
    intro s hs
    simp only [unlabelled, toJson, Json.strings, Json.stringsMembers, Json.stringsItems, List.map_nil, List.nil_append,
      List.append_nil, List.singleton_append, List.mem_cons] at hs
    rcases hs with rfl | hs
    · exact not_contains_empty hpart
    · exact not_contains_stringsMembers hpart es h s hs

/-- A text that is in no leaf of the items is in none of their strings. -/
theorem not_contains_stringsItems (hpart : part.toList ≠ []) : (vs : List Rendered) → ∀ {path : List String},
    (∀ leaf ∈ leavesItems path vs, leaf.2.Writable ∧ LacksLeaf part leaf) →
    ∀ s ∈ Json.stringsItems (itemsToJson (unlabelledItems vs)), Text.contains s part = false
  | [], _, _ => fun _ hs => absurd hs List.not_mem_nil
  | v :: vs, _, h => by
    obtain ⟨hfirst, hrest⟩ := List.forall_mem_append.1 h
    exact List.forall_mem_append.2 ⟨not_contains_strings hpart v hfirst, not_contains_stringsItems hpart vs hrest⟩

/-- A text that is in no leaf of the entries is in none of their strings. -/
theorem not_contains_stringsMembers (hpart : part.toList ≠ []) :
    (es : List (String × Rendered)) → ∀ {path : List String},
    (∀ leaf ∈ leavesEntries path es, leaf.2.Writable ∧ LacksLeaf part leaf) →
    ∀ s ∈ Json.stringsMembers (entriesToJson (unlabelledEntries es)), Text.contains s part = false
  | [], _, _ => fun _ hs => absurd hs List.not_mem_nil
  | (_, v) :: es, _, h => by
    obtain ⟨hfirst, hrest⟩ := List.forall_mem_append.1 h
    exact List.forall_mem_append.2 ⟨not_contains_strings hpart v hfirst, not_contains_stringsMembers hpart es hrest⟩

end

/-! ## Labels -/

mutual

/-- The labels in the value: the kinds of its objects and the names of their template fields. -/
def labels : Rendered → List String
  | null | bool _ | integer _ | float _ | text _ => []
  | sequence vs => labelsItems vs
  | mapping es => labelsEntries es
  | object kind names es => kind :: names ++ labelsEntries es

/-- The labels in items. -/
def labelsItems : List Rendered → List String
  | [] => []
  | v :: vs => labels v ++ labelsItems vs

/-- The labels in the values of entries. -/
def labelsEntries : List (String × Rendered) → List String
  | [] => []
  | (_, v) :: es => labels v ++ labelsEntries es

end

/-- The strings of an array of strings are these. -/
theorem stringsItems_map_string (names : List String) : Json.stringsItems (names.map Json.string) = names := by
  induction names with
  | nil => rfl
  | cons name names ih => rw [List.map_cons, Json.stringsItems, Json.strings, ih, List.singleton_append]

mutual

/-- A string that a value is written with is a label, or it is one that the value is written with without its labels. -/
theorem mem_strings_toJson {s : String} : (v : Rendered) → s ∈ v.toJson.strings →
    s ∈ v.labels ∨ s ∈ v.unlabelled.toJson.strings
  | null, h | bool _, h | integer _, h | float _, h | text _, h => .inr h
  | sequence vs, h => mem_stringsItems_toJson vs h
  | mapping es, h => mem_stringsMembers_toJson es h
  | object kind names es, h => by
    simp only [toJson, Json.strings, Json.stringsMembers, stringsItems_map_string, List.append_nil, List.mem_append,
      List.mem_singleton] at h
    simp only [labels, unlabelled, toJson, Json.strings, Json.stringsMembers, Json.stringsItems, List.map_nil,
      List.nil_append, List.append_nil, List.mem_append, List.mem_cons]
    rcases h with h | h | h
    · exact .inl (.inl (.inl h))
    · exact .inl (.inl (.inr h))
    · exact (mem_stringsMembers_toJson es h).imp .inr .inr

/-- A string that items are written with is a label of them, or one that they are written with without their labels. -/
theorem mem_stringsItems_toJson {s : String} : (vs : List Rendered) → s ∈ Json.stringsItems (itemsToJson vs) →
    s ∈ labelsItems vs ∨ s ∈ Json.stringsItems (itemsToJson (unlabelledItems vs))
  | [], h => .inr h
  | v :: vs, h => by
    rcases List.mem_append.1 h with h | h
    · exact (mem_strings_toJson v h).imp (List.mem_append_left _) (List.mem_append_left _)
    · exact (mem_stringsItems_toJson vs h).imp (List.mem_append_right _) (List.mem_append_right _)

/-- A string that entries are written with is a label of them, or one that they are written with without their
labels. -/
theorem mem_stringsMembers_toJson {s : String} : (es : List (String × Rendered)) →
    s ∈ Json.stringsMembers (entriesToJson es) →
    s ∈ labelsEntries es ∨ s ∈ Json.stringsMembers (entriesToJson (unlabelledEntries es))
  | [], h => .inr h
  | (_, v) :: es, h => by
    rcases List.mem_append.1 h with h | h
    · exact (mem_strings_toJson v h).imp (List.mem_append_left _) (List.mem_append_left _)
    · exact (mem_stringsMembers_toJson es h).imp (List.mem_append_right _) (List.mem_append_right _)

end

end Rendered

/-- Apart from labels, no string that the fields are written with has a text in it. -/
def Fields.Lacks (fields : Fields) (part : String) : Prop :=
  ∀ s ∈ (Fields.toJson (Rendered.unlabelledEntries fields)).strings, Text.contains s part = false

end SnapshotLedger
