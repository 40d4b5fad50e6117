import Mathlib.Data.List.Nodup
import Mathlib.Data.List.Perm.Subperm
import SnapshotLedger.Proofs.Json.Narrowed
import SnapshotLedger.Rendered.Encoding

/-!
# Rendered values come back from JSON

Documents are the same when they differ only in the order of the members of objects; then their sorted forms are
equal. A value read from a document is written as the same document, in which integers too large for a signed
word are narrowed (`sorted_toJson_ofJson`), whether the objects in it were taken for objects or for mappings.
Fields without binary numbers are written as documents that can be read (`Fields.Storable.plain_toJson`).
-/

namespace SnapshotLedger

/-! ## Sorted documents -/

namespace Json

mutual

/-- The document with the members of every object in order of their keys. -/
def sorted : Json → Json
  | null => null
  | bool b => bool b
  | integer n => integer n
  | float x => float x
  | string s => string s
  | array vs => array (sortedItems vs)
  | object ms => object (Entries.ofList (sortedMembers ms))

/-- The items, each of them sorted. -/
def sortedItems : List Json → List Json
  | [] => []
  | v :: vs => sorted v :: sortedItems vs

/-- The members, the value of each of them sorted. -/
def sortedMembers : List (String × Json) → List (String × Json)
  | [] => []
  | (k, v) :: ms => (k, sorted v) :: sortedMembers ms

end

/-- Sorting members sorts their values. -/
theorem sortedMembers_eq (ms : List (String × Json)) : sortedMembers ms = Entries.mapValues sorted ms :=
  Entries.eq_mapValues rfl (fun _ _ => rfl) ms

end Json

namespace Rendered

/-- Writing entries writes their values. -/
theorem entriesToJson_eq (es : List (String × Rendered)) : entriesToJson es = Entries.mapValues toJson es :=
  Entries.eq_mapValues rfl (fun _ _ => rfl) es

/-- Putting entries in order before they are written changes nothing but the order. -/
theorem sorted_entriesToJson_ofList (es : List (String × Rendered)) :
    Entries.ofList (Json.sortedMembers (entriesToJson (Entries.ofList es))) =
      Entries.ofList (Json.sortedMembers (entriesToJson es)) := by
  rw [Json.sortedMembers_eq, Json.sortedMembers_eq, entriesToJson_eq, entriesToJson_eq, Entries.mapValues_ofList,
    Entries.mapValues_ofList, Entries.ofList_of_ordered (Entries.ordered_ofList _)]

/-! ## Objects among the members -/

/-- The texts of an array of names are its items. -/
theorem mapM_string? {items : List Json} {names : List String} (h : items.mapM Json.string? = some names) :
    items = names.map .string := by
  induction items generalizing names with
  | nil =>
    rw [List.mapM_nil] at h
    obtain rfl := Option.some.inj h
    rfl
  | cons v items ih =>
    rw [List.mapM_cons] at h
    obtain ⟨s, hs, h⟩ := Option.bind_eq_some_iff.1 h
    obtain ⟨rest, hrest, h⟩ := Option.bind_eq_some_iff.1 h
    obtain rfl := Option.some.inj h
    cases v with
    | string t =>
      obtain rfl := Option.some.inj hs
      rw [List.map_cons, ih hrest]
    | null | bool _ | integer _ | float _ | array _ | object _ => cases hs

/-- Names are the texts of the array that they are written as. -/
theorem mapM_string?_strings (names : List String) : (names.map Json.string).mapM Json.string? = some names := by
  induction names with
  | nil => rfl
  | cons s names ih =>
    rw [List.map_cons, List.mapM_cons, ih]
    rfl

/-- Members are taken for an object exactly when they are three and what an object is written with stands under
its three keys. -/
theorem tag?_eq_some_iff {ms : List (String × Json)} {kind : String} {names : List String} :
    tag? ms = some (kind, names) ↔ ms.length = 3 ∧ ms.lookup kindKey = some (.string kind) ∧
      ms.lookup templateFieldsKey = some (.array (names.map .string)) ∧
      ∃ attributes, ms.lookup attributesKey = some (.object attributes) := by
  constructor
  · intro h
    unfold tag? at h
    split at h
    · cases h
    next hlen =>
    simp only [bind, Option.bind_eq_some_iff] at h
    obtain ⟨kindValue, hkind, s, hs, namesValue, hnames, ns, hns, attributesValue, hattributes, h⟩ := h
    split at h
    · next attributes =>
      cases h
      obtain rfl : kindValue = .string kind := by
        cases kindValue <;> cases hs
        rfl
      obtain ⟨items, rfl, hitems⟩ : ∃ items, namesValue = .array items ∧ items.mapM Json.string? = some names := by
        cases namesValue <;> first | exact ⟨_, rfl, hns⟩ | cases hns
      rw [mapM_string? hitems] at hnames
      exact ⟨Decidable.not_not.1 hlen, hkind, hnames, attributes, hattributes⟩
    · cases h
  · rintro ⟨hlen, hkind, hnames, attributes, hattributes⟩
    unfold tag?
    rw [if_neg (not_not.2 hlen), hkind, hnames, hattributes]
    simp only [bind, Option.bind_some, Json.string?, names?, mapM_string?_strings]

/-- The members that an object is written with. -/
def objectMembers (kind : String) (names : List String) (attributes : List (String × Json)) : List (String × Json) :=
  [(kindKey, .string kind), (templateFieldsKey, .array (names.map .string)), (attributesKey, .object attributes)]

/-- Members taken for an object are those that an object is written with. -/
theorem perm_of_tag? {ms : List (String × Json)} {kind : String} {names : List String}
    (h : tag? ms = some (kind, names)) :
    ∃ attributes, ms.lookup attributesKey = some (.object attributes) ∧
      ms.Perm (objectMembers kind names attributes) := by
  obtain ⟨hlen, hkind, hnames, attributes, hattributes⟩ := tag?_eq_some_iff.1 h
  refine ⟨attributes, hattributes, List.Perm.symm ?_⟩
  have hsub : objectMembers kind names attributes ⊆ ms := by
    intro e he
    simp only [objectMembers, List.mem_cons, List.not_mem_nil, or_false] at he
    rcases he with rfl | rfl | rfl
    · exact Entries.mem_of_lookup hkind
    · exact Entries.mem_of_lookup hnames
    · exact Entries.mem_of_lookup hattributes
  have hkeys : ((objectMembers kind names attributes).map Prod.fst).Nodup := by
    simp only [objectMembers, List.map_cons, List.map_nil]
    decide
  have hdistinct : (objectMembers kind names attributes).Nodup := hkeys.of_map Prod.fst
  have hfew : ms.length ≤ (objectMembers kind names attributes).length := Nat.le_of_eq hlen
  exact (List.subperm_of_subset hdistinct hsub).perm_of_length_le hfew

/-! ## Values read from documents -/

/-- What is read from members and written again is the same, when this holds of their values. -/
theorem sorted_entries_ofJson {ms ns : List (String × Json)}
    (h : Json.sortedMembers (entriesToJson (entriesOfJson ms)) = Json.sortedMembers ns) :
    Entries.ofList (Json.sortedMembers (entriesToJson (Entries.ofList (entriesOfJson ms)))) =
      Entries.ofList (Json.sortedMembers ns) := by
  rw [sorted_entriesToJson_ofList, h]

/-- Names have nothing to be narrowed. -/
theorem narrowedItems_strings (names : List String) : Json.narrowedItems (names.map .string) = names.map .string := by
  induction names with
  | nil => rfl
  | cons s names ih =>
    rw [List.map_cons, Json.narrowedItems, ih]
    rfl

/-- An object is written with the members that it was taken from, when this holds of its attributes. -/
theorem sorted_object {ms : List (String × Json)} (hkeys : (ms.map Prod.fst).Nodup) {kind : String}
    {names : List String} {attributes : List (String × Json)} (hperm : ms.Perm (objectMembers kind names attributes))
    {es : List (String × Rendered)}
    (h : Entries.ofList (Json.sortedMembers (entriesToJson es)) =
      Entries.ofList (Json.sortedMembers (Json.narrowedMembers attributes))) :
    (toJson (object kind names es)).sorted = (Json.object ms).narrowed.sorted := by
  have hsorted : Entries.ofList (Json.sortedMembers (Json.narrowedMembers ms)) =
      Entries.ofList (Json.sortedMembers (Json.narrowedMembers (objectMembers kind names attributes))) := by
    simp only [Json.sortedMembers_eq, Json.narrowedMembers_eq]
    refine Entries.ofList_eq_of_perm ?_ ((hperm.map _).map _)
    rw [Entries.keys_mapValues, Entries.keys_mapValues]
    exact hkeys
  rw [Json.narrowed, Json.sorted, hsorted]
  simp only [toJson, objectMembers, Json.narrowedMembers, Json.narrowed, narrowedItems_strings, Json.sorted,
    Json.sortedMembers, h]

mutual

/-- A value read from a document is written as the same document narrowed, the order of members aside. -/
theorem sorted_toJson_ofJson : (v : Json) → v.WellFormed → (toJson (ofJson v)).sorted = v.narrowed.sorted
  | .null, _ | .bool _, _ | .string _, _ => rfl
  | .integer n, hw => by
    rcases Json.narrowed_integer hw with ⟨hsigned, hnarrowed⟩ | ⟨hlarge, hfinite, hnarrowed⟩
    · rw [ofJson, ofInteger, if_pos hsigned, hnarrowed, toJson]
    · rw [ofJson, ofInteger, if_neg hlarge, hnarrowed, toJson, if_pos hfinite]
  | .float x, hw => by
    have hfinite : x.isFinite = true := hw
    rw [ofJson, toJson, if_pos hfinite]
    rfl
  | .array vs, hw => by
    simp only [ofJson, toJson, Json.narrowed, Json.sorted, sorted_itemsToJson_itemsOfJson vs hw]
  | .object ms, hw => by
    rw [ofJson]
    split
    · next kind names htag =>
      obtain ⟨attributes, hattributes, hperm⟩ := perm_of_tag? htag
      exact sorted_object hw.1 hperm (sorted_attributesOfJson ms hw.2 hattributes)
    · simp only [toJson, Json.narrowed, Json.sorted]
      rw [sorted_entries_ofJson (sorted_entriesToJson_entriesOfJson ms hw.2)]

/-- Items read are written as the same items narrowed. -/
theorem sorted_itemsToJson_itemsOfJson : (vs : List Json) → Json.WellFormedItems vs →
    Json.sortedItems (itemsToJson (itemsOfJson vs)) = Json.sortedItems (Json.narrowedItems vs)
  | [], _ => rfl
  | v :: vs, hw => by
    simp only [itemsOfJson, itemsToJson, Json.narrowedItems, Json.sortedItems, sorted_toJson_ofJson v hw.1,
      sorted_itemsToJson_itemsOfJson vs hw.2]

/-- Members read are written as the same members narrowed. -/
theorem sorted_entriesToJson_entriesOfJson : (ms : List (String × Json)) → Json.WellFormedMembers ms →
    Json.sortedMembers (entriesToJson (entriesOfJson ms)) = Json.sortedMembers (Json.narrowedMembers ms)
  | [], _ => rfl
  | (k, v) :: ms, hw => by
    simp only [entriesOfJson, entriesToJson, Json.narrowedMembers, Json.sortedMembers, sorted_toJson_ofJson v hw.1,
      sorted_entriesToJson_entriesOfJson ms hw.2]

/-- Attributes read are written as the members that they were read from, narrowed. -/
theorem sorted_attributesOfJson : (ms : List (String × Json)) → Json.WellFormedMembers ms → ∀ {attributes},
    ms.lookup attributesKey = some (.object attributes) →
    Entries.ofList (Json.sortedMembers (entriesToJson (attributesOfJson ms))) =
      Entries.ofList (Json.sortedMembers (Json.narrowedMembers attributes))
  | [], _, _, h => by cases h
  | (k, .object ms) :: r, hw, attributes, h => by
    rw [attributesOfJson]
    rw [List.lookup_cons] at h
    split
    · next heq =>
      rw [beq_iff_eq.2 heq.symm] at h
      obtain rfl := Json.object.inj (Option.some.inj h)
      exact sorted_entries_ofJson (sorted_entriesToJson_entriesOfJson ms hw.1.2)
    · next hne =>
      rw [beq_eq_false_iff_ne.2 (Ne.symm hne)] at h
      exact sorted_attributesOfJson r hw.2 h
  | (k, .null) :: r, hw, _, h | (k, .bool _) :: r, hw, _, h | (k, .integer _) :: r, hw, _, h
  | (k, .float _) :: r, hw, _, h | (k, .string _) :: r, hw, _, h | (k, .array _) :: r, hw, _, h => by
    rw [attributesOfJson]
    · refine sorted_attributesOfJson r hw.2 ?_
      rw [List.lookup_cons] at h
      split at h
      · cases h
      · exact h
    · intro _ _ heq
      cases heq

end

end Rendered

/-! ## Fields without binary numbers -/

namespace Rendered

mutual

/-- No number is a binary one, and every integer is a signed word. -/
def Exact : Rendered → Prop
  | null | bool _ | text _ => True
  | integer n => Json.fitsSigned n = true
  | float _ => False
  | sequence vs => ExactItems vs
  | mapping es => ExactEntries es
  | object _ _ es => ExactEntries es

/-- All items are exact. -/
def ExactItems : List Rendered → Prop
  | [] => True
  | v :: vs => Exact v ∧ ExactItems vs

/-- The values of all entries are exact. -/
def ExactEntries : List (String × Rendered) → Prop
  | [] => True
  | (_, v) :: es => Exact v ∧ ExactEntries es

end

/-- Names are plain. -/
theorem plainItems_strings (names : List String) : Json.PlainItems (names.map .string) := by
  induction names with
  | nil => trivial
  | cons s names ih => exact ⟨by simp only [Json.Plain], ih⟩

/-- The keys of entries are those of the members that they are written as. -/
theorem nodup_keys_entriesToJson {es : List (String × Rendered)} (h : Entries.Ordered es) :
    ((entriesToJson es).map Prod.fst).Nodup := by
  rw [entriesToJson_eq, Entries.keys_mapValues]
  exact Entries.nodup_of_ordered h

mutual

/-- An exact value in order is written as a plain document. -/
theorem plain_toJson : (v : Rendered) → v.Exact → v.Ordered → (toJson v).Plain
  | null, _, _ | bool _, _, _ | text _, _, _ => by simp only [toJson, Json.Plain]
  | integer n, hexact, _ => by
    simp only [Exact] at hexact
    simpa only [toJson, Json.Plain] using hexact
  | float _, hexact, _ => by simp only [Exact] at hexact
  | sequence vs, hexact, hordered => by
    simp only [Exact] at hexact
    simp only [Ordered] at hordered
    simp only [toJson, Json.Plain]
    exact plain_itemsToJson vs hexact hordered
  | mapping es, hexact, hordered => by
    simp only [Exact] at hexact
    simp only [Ordered] at hordered
    simp only [toJson, Json.Plain]
    exact ⟨nodup_keys_entriesToJson hordered.1, plain_entriesToJson es hexact hordered.2⟩
  | object kind names es, hexact, hordered => by
    simp only [Exact] at hexact
    simp only [Ordered] at hordered
    simp only [toJson, Json.Plain, Json.PlainMembers, List.map_cons, List.map_nil, true_and, and_true]
    exact ⟨by decide, plainItems_strings names, nodup_keys_entriesToJson hordered.1,
      plain_entriesToJson es hexact hordered.2⟩

/-- Exact items in order are written as plain items. -/
theorem plain_itemsToJson : (vs : List Rendered) → ExactItems vs → OrderedItems vs → Json.PlainItems (itemsToJson vs)
  | [], _, _ => trivial
  | v :: vs, hexact, hordered => ⟨plain_toJson v hexact.1 hordered.1, plain_itemsToJson vs hexact.2 hordered.2⟩

/-- Entries with exact values in order are written as plain members. -/
theorem plain_entriesToJson : (es : List (String × Rendered)) → ExactEntries es → OrderedEntries es →
    Json.PlainMembers (entriesToJson es)
  | [], _, _ => trivial
  | (_, v) :: es, hexact, hordered => ⟨plain_toJson v hexact.1 hordered.1, plain_entriesToJson es hexact.2 hordered.2⟩

end

end Rendered

namespace Fields

/-- What a store gives back as it was: fields in order without binary numbers that are not nested too deeply. -/
structure Storable (fields : Fields) : Prop where
  ordered : Entries.Ordered fields
  values : Rendered.OrderedEntries fields
  exact : Rendered.ExactEntries fields
  shallow : (toJson fields).nesting ≤ Json.deepest

/-- Fields as they are read from their document. -/
def reread (fields : Fields) : Fields := Entries.ofList (Rendered.entriesOfJson (Rendered.entriesToJson fields))

/-- Storable fields are written as a plain document. -/
theorem Storable.plain_toJson {fields : Fields} (h : fields.Storable) : (toJson fields).Plain := by
  simp only [toJson, Json.Plain]
  exact ⟨Rendered.nodup_keys_entriesToJson h.ordered, Rendered.plain_entriesToJson fields h.exact h.values⟩

/-- Fields that were read are written as the document that they were read from, the order of members aside. -/
theorem Storable.sorted_reread {fields : Fields} (h : fields.Storable) :
    (toJson fields.reread).sorted = (toJson fields).sorted := by
  have hplain := h.plain_toJson
  simp only [toJson, Json.Plain] at hplain
  obtain ⟨hw, hnarrowed⟩ := Json.wellFormedMembers_of_plain hplain.2
  simp only [toJson, reread, Json.sorted]
  rw [Rendered.sorted_entries_ofJson (Rendered.sorted_entriesToJson_entriesOfJson _ hw), hnarrowed]

end Fields

end SnapshotLedger
