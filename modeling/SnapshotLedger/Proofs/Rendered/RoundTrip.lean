import SnapshotLedger.Proofs.Rendered.Encoding

/-!
# Which rendered values come back from JSON

Mappings and objects are written as JSON objects alike, so a mapping may look like an object once it is written
(`LikeObject`), and a number that is not finite is written as a text. Main statement: a value comes back equal
to itself exactly when no part of it is such a number or such a mapping (`same_ofJson_toJson_iff`). The parts of
a value are all values in it, at any depth.
-/

namespace SnapshotLedger.Rendered

/-! ## Parts -/

mutual

/-- The value and all values in it. -/
def parts : Rendered → List Rendered
  | null => [null]
  | bool b => [bool b]
  | integer n => [integer n]
  | float x => [float x]
  | text s => [text s]
  | sequence vs => sequence vs :: partsItems vs
  | mapping es => mapping es :: partsEntries es
  | object kind names es => object kind names es :: partsEntries es

/-- The parts of items. -/
def partsItems : List Rendered → List Rendered
  | [] => []
  | v :: vs => parts v ++ partsItems vs

/-- The parts of the values of entries. -/
def partsEntries : List (String × Rendered) → List Rendered
  | [] => []
  | (_, v) :: es => parts v ++ partsEntries es

end

/-- The parts of items are those of each of them. -/
theorem mem_partsItems {vs : List Rendered} {u : Rendered} : u ∈ partsItems vs ↔ ∃ v ∈ vs, u ∈ v.parts :=
  mem_appended_iff rfl fun _ _ => rfl

/-- The parts of entries are those of their values. -/
theorem mem_partsEntries {es : List (String × Rendered)} {u : Rendered} :
    u ∈ partsEntries es ↔ ∃ e ∈ es, u ∈ e.2.parts :=
  mem_appended_iff rfl fun _ _ => rfl

/-- Something holds of every part of the value. -/
def Throughout (p : Rendered → Prop) (v : Rendered) : Prop := ∀ u ∈ v.parts, p u

section Throughout

variable {p : Rendered → Prop}

/-- A value is one of its parts. -/
theorem Throughout.self {v : Rendered} (h : v.Throughout p) : p v := by
  refine h v ?_
  cases v <;> simp only [parts, List.mem_cons, true_or]

/-- What holds throughout a sequence holds of it and throughout its items. -/
theorem throughout_sequence {vs : List Rendered} :
    (sequence vs).Throughout p ↔ p (sequence vs) ∧ ∀ v ∈ vs, v.Throughout p := by
  simp only [Throughout, parts, List.forall_mem_cons, mem_partsItems]
  constructor
  · rintro ⟨hself, hparts⟩
    exact ⟨hself, fun v hv u hu => hparts u ⟨v, hv, hu⟩⟩
  · rintro ⟨hself, hitems⟩
    exact ⟨hself, fun u ⟨v, hv, hu⟩ => hitems v hv u hu⟩

/-- Something holds of all parts of entries exactly when it holds throughout their values. -/
theorem forall_mem_partsEntries {es : List (String × Rendered)} :
    (∀ u ∈ partsEntries es, p u) ↔ ∀ e ∈ es, e.2.Throughout p := by
  simp only [mem_partsEntries]
  constructor
  · intro h e he u hu
    exact h u ⟨e, he, hu⟩
  · rintro h u ⟨e, he, hu⟩
    exact h e he u hu

/-- What holds throughout a mapping holds of it and throughout its values. -/
theorem throughout_mapping {es : List (String × Rendered)} :
    (mapping es).Throughout p ↔ p (mapping es) ∧ ∀ e ∈ es, e.2.Throughout p := by
  rw [Throughout, parts, List.forall_mem_cons, forall_mem_partsEntries]

/-- What holds throughout an object holds of it and throughout its attributes. -/
theorem throughout_object {kind : String} {names : List String} {es : List (String × Rendered)} :
    (object kind names es).Throughout p ↔ p (object kind names es) ∧ ∀ e ∈ es, e.2.Throughout p := by
  rw [Throughout, parts, List.forall_mem_cons, forall_mem_partsEntries]

end Throughout

/-- A value as it is kept: its entries are in order of their keys at every depth, and its integers are signed words. -/
structure Proper (v : Rendered) : Prop where
  ordered : v.Ordered
  signed : v.Throughout fun u => ∀ n, u = integer n → Json.fitsSigned n = true

/-- The items of a sequence are kept as it is. -/
theorem Proper.items {vs : List Rendered} (h : (sequence vs).Proper) : ∀ v ∈ vs, v.Proper := by
  have hitems : ∀ vs : List Rendered, OrderedItems vs → ∀ v ∈ vs, v.Ordered := by
    intro vs hvs
    induction vs with
    | nil => exact fun v hv => absurd hv List.not_mem_nil
    | cons w vs ih => exact List.forall_mem_cons.2 ⟨hvs.1, ih hvs.2⟩
  have hordered := h.ordered
  simp only [Ordered] at hordered
  exact fun v hv => ⟨hitems vs hordered v hv, (throughout_sequence.1 h.signed).2 v hv⟩

/-- The values of a mapping are kept as it is, and its entries are in order. -/
theorem Proper.values {es : List (String × Rendered)} (h : (mapping es).Proper) :
    Entries.Ordered es ∧ ∀ e ∈ es, e.2.Proper := by
  have hordered := h.ordered
  simp only [Ordered] at hordered
  have hvalues := (orderedEntries_iff es).1 hordered.2
  exact ⟨hordered.1, fun e he => ⟨hvalues e he, (throughout_mapping.1 h.signed).2 e he⟩⟩

/-- The attributes of an object are kept as it is, and they are in order. -/
theorem Proper.attributes {kind : String} {names : List String} {es : List (String × Rendered)}
    (h : (object kind names es).Proper) : Entries.Ordered es ∧ ∀ e ∈ es, e.2.Proper := by
  have hordered := h.ordered
  simp only [Ordered] at hordered
  have hvalues := (orderedEntries_iff es).1 hordered.2
  exact ⟨hordered.1, fun e he => ⟨hvalues e he, (throughout_object.1 h.signed).2 e he⟩⟩

/-! ## Mappings that look like objects -/

/-- The entries of a mapping are written like an object: they have exactly its three keys, with a text for the
kind, a sequence of texts for the names of template fields, and a mapping or an object for the attributes. -/
structure LikeObject (es : List (String × Rendered)) : Prop where
  keys : ∀ k, k ∈ es.map Prod.fst ↔ k = kindKey ∨ k = templateFieldsKey ∨ k = attributesKey
  kind : ∃ s, Entries.find? kindKey es = some (text s)
  templateFields : ∃ names : List String, Entries.find? templateFieldsKey es = some (sequence (names.map text))
  attributes : ∃ fs, Entries.find? attributesKey es = some (mapping fs) ∨
    ∃ kind names, Entries.find? attributesKey es = some (object kind names fs)

/-- A part that is written like nothing else: neither a number that is not finite nor a mapping that looks like
an object. -/
def Unmistakable : Rendered → Prop
  | float x => x.isFinite = true
  | mapping es => ¬LikeObject es
  | null | bool _ | integer _ | text _ | sequence _ | object _ _ _ => True

/-- Of what is unmistakable only a text is written as a text. -/
theorem eq_text_of_toJson {v : Rendered} (h : v.Unmistakable) {s : String} (hjson : toJson v = .string s) :
    v = text s := by
  cases v with
  | text t => rw [Json.string.inj hjson]
  | float x =>
    have hfinite : x.isFinite = true := h
    rw [toJson, if_pos hfinite] at hjson
    cases hjson
  | null | bool _ | integer _ | sequence _ | mapping _ | object _ _ _ => simp only [toJson, reduceCtorEq] at hjson

/-- Of what is unmistakable only texts are written as names. -/
theorem eq_texts_of_itemsToJson {vs : List Rendered} (h : ∀ v ∈ vs, v.Unmistakable) {names : List String}
    (hjson : itemsToJson vs = names.map .string) : vs = names.map text := by
  induction vs generalizing names with
  | nil =>
    cases names with
    | nil => rfl
    | cons s names => cases hjson
  | cons v vs ih =>
    cases names with
    | nil => cases hjson
    | cons s names =>
      obtain ⟨hfirst, hrest⟩ := List.forall_mem_cons.1 h
      obtain ⟨hv, hvs⟩ := List.cons.inj hjson
      rw [eq_text_of_toJson hfirst hv, ih hrest hvs]
      rfl

/-- Only a sequence is written as an array. -/
theorem exists_of_toJson_array {v : Rendered} {items : List Json} (h : toJson v = .array items) :
    ∃ vs, v = sequence vs ∧ itemsToJson vs = items := by
  cases v with
  | sequence vs =>
    rw [toJson] at h
    exact ⟨vs, rfl, Json.array.inj h⟩
  | float x =>
    rw [toJson] at h
    split at h <;> cases h
  | null | bool _ | integer _ | text _ | mapping _ | object _ _ _ => simp only [toJson, reduceCtorEq] at h

/-- Only a mapping or an object is written as an object. -/
theorem exists_of_toJson_object {v : Rendered} {ms : List (String × Json)} (h : toJson v = .object ms) :
    ∃ fs, v = mapping fs ∨ ∃ kind names, v = object kind names fs := by
  cases v with
  | mapping fs => exact ⟨fs, .inl rfl⟩
  | object kind names fs => exact ⟨fs, .inr ⟨kind, names, rfl⟩⟩
  | float x =>
    rw [toJson] at h
    split at h <;> cases h
  | null | bool _ | integer _ | text _ | sequence _ => simp only [toJson, reduceCtorEq] at h

/-- The keys that an object is written with differ. -/
theorem nodup_objectKeys : [kindKey, templateFieldsKey, attributesKey].Nodup := by decide

/-- A mapping that is taken for an object looks like one, unless there is something in it that is not finite. -/
theorem likeObject_of_tag? {es : List (String × Rendered)} (h : ∀ e ∈ es, e.2.Throughout Unmistakable) {kind : String}
    {names : List String} (htag : tag? (entriesToJson es) = some (kind, names)) : LikeObject es := by
  have hlookup : ∀ {k v}, (entriesToJson es).lookup k = some v → ∃ u, Entries.find? k es = some u ∧ toJson u = v := by
    intro k v hv
    rw [entriesToJson_eq, Entries.lookup_mapValues, Option.map_eq_some_iff] at hv
    exact hv
  have hvalue : ∀ {k u}, Entries.find? k es = some u → u.Throughout Unmistakable :=
    fun {k u} hu => h (k, u) (Entries.mem_of_lookup hu)
  obtain ⟨_, hperm⟩ := perm_of_tag? htag
  obtain ⟨-, hkind, hnames, attributes, hattributes⟩ := tag?_eq_some_iff.1 htag
  obtain ⟨kindValue, hkindFound, hkindJson⟩ := hlookup hkind
  obtain ⟨namesValue, hnamesFound, hnamesJson⟩ := hlookup hnames
  obtain ⟨attributesValue, hattributesFound, hattributesJson⟩ := hlookup hattributes
  refine ⟨fun k => ?_, ⟨kind, ?_⟩, ⟨names, ?_⟩, ?_⟩
  · have hkeys := (hperm.2.map Prod.fst).mem_iff (a := k)
    rw [entriesToJson_eq, Entries.keys_mapValues] at hkeys
    rw [hkeys]
    simp only [objectMembers, List.map_cons, List.map_nil, List.mem_cons, List.not_mem_nil, or_false]
  · rw [hkindFound, eq_text_of_toJson (hvalue hkindFound).self hkindJson]
  · obtain ⟨vs, rfl, hitems⟩ := exists_of_toJson_array hnamesJson
    have hvs := (throughout_sequence.1 (hvalue hnamesFound)).2
    rw [hnamesFound, eq_texts_of_itemsToJson (fun v hv => (hvs v hv).self) hitems]
  · obtain ⟨fs, hfs⟩ := exists_of_toJson_object hattributesJson
    refine ⟨fs, ?_⟩
    rcases hfs with rfl | ⟨k, ns, rfl⟩
    · exact .inl hattributesFound
    · exact .inr ⟨k, ns, hattributesFound⟩

/-- Names are written item by item. -/
theorem itemsToJson_texts (names : List String) : itemsToJson (names.map text) = names.map .string := by
  induction names with
  | nil => rfl
  | cons s names ih =>
    rw [List.map_cons, itemsToJson, ih]
    rfl

/-- A mapping that looks like an object is taken for one. -/
theorem tag?_of_likeObject {es : List (String × Rendered)} (hordered : Entries.Ordered es) (h : LikeObject es) :
    ∃ kind names, tag? (entriesToJson es) = some (kind, names) := by
  have hlookup : ∀ {k u}, Entries.find? k es = some u → (entriesToJson es).lookup k = some (toJson u) := by
    intro k u hu
    rw [entriesToJson_eq, Entries.lookup_mapValues]
    exact congrArg (Option.map toJson) hu
  obtain ⟨kind, hkind⟩ := h.kind
  obtain ⟨names, hnames⟩ := h.templateFields
  refine ⟨kind, names, tag?_eq_some_iff.2 ⟨?_, ?_, ?_, ?_⟩⟩
  · have hperm : (es.map Prod.fst).Perm [kindKey, templateFieldsKey, attributesKey] := by
      refine (List.perm_ext_iff_of_nodup (Entries.nodup_of_ordered hordered) nodup_objectKeys).2 fun k => ?_
      rw [h.keys]
      simp only [List.mem_cons, List.not_mem_nil, or_false]
    have hlen := hperm.length_eq
    rw [List.length_map] at hlen
    rw [entriesToJson_eq, Entries.mapValues, List.length_map, hlen]
    rfl
  · rw [hlookup hkind, toJson]
  · rw [hlookup hnames, toJson, itemsToJson_texts]
  · obtain ⟨fs, hfs | ⟨k, ns, hfs⟩⟩ := h.attributes
    · exact ⟨entriesToJson fs, by rw [hlookup hfs, toJson]⟩
    · exact ⟨objectMembers k ns (entriesToJson fs), by rw [hlookup hfs, toJson, objectMembers]⟩

/-! ## Values that come back -/

/-- What is read from written entries has their keys in their order. -/
theorem ordered_entriesOfJson_entriesToJson {es : List (String × Rendered)} (h : Entries.Ordered es) :
    Entries.Ordered (entriesOfJson (entriesToJson es)) := by
  have hkeys : (entriesOfJson (entriesToJson es)).map Prod.fst = es.map Prod.fst := by
    clear h
    induction es with
    | nil => rfl
    | cons e es ih =>
      obtain ⟨k, v⟩ := e
      rw [entriesToJson, entriesOfJson, List.map_cons, List.map_cons, ih]
  rw [Entries.Ordered, hkeys]
  exact h

/-- The members that an object is written with are taken for that object, with what is read from its attributes. -/
theorem ofJson_toJson_object (kind : String) (names : List String) {es : List (String × Rendered)}
    (h : Entries.Ordered es) :
    ofJson (toJson (object kind names es)) = object kind names (entriesOfJson (entriesToJson es)) := by
  have htag : tag? (objectMembers kind names (entriesToJson es)) = some (kind, names) :=
    tag?_eq_some_iff.2 ⟨rfl, rfl, rfl, entriesToJson es, rfl⟩
  have hattributes : attributesOfJson (objectMembers kind names (entriesToJson es)) =
      entriesOfJson (entriesToJson es) := by
    simp only [objectMembers, attributesOfJson, if_true]
    exact Entries.ofList_of_ordered (ordered_entriesOfJson_entriesToJson h)
  rw [toJson]
  change ofJson (.object (objectMembers kind names (entriesToJson es))) = _
  rw [ofJson, htag]
  dsimp only
  rw [hattributes]

/-- A finite number is equal to itself. -/
theorem sameNumber_self {x : Binary64} (h : x.isFinite = true) : x.sameNumber x = true := by
  have hnan : x.isNaN = false := by
    simp only [Binary64.isFinite, bne_iff_ne, ne_eq] at h
    simp only [Binary64.isNaN, Bool.and_eq_false_iff, beq_eq_false_iff_ne, ne_eq]
    exact .inl h
  simp only [Binary64.sameNumber, hnan, Bool.not_false, Bool.true_and, beq_self_eq_true, Bool.true_or]

mutual

/-- A value comes back equal to itself exactly when all its parts are unmistakable. -/
theorem same_ofJson_toJson : (v : Rendered) → v.Proper → ((ofJson (toJson v)).same v = true ↔ v.Throughout Unmistakable)
  | null, _ | bool _, _ | text _, _ => by
    simp only [toJson, ofJson, same, Throughout, parts, List.forall_mem_singleton, Unmistakable, beq_self_eq_true]
  | integer n, h => by
    have hfits : Json.fitsSigned n = true := h.signed.self n rfl
    simp only [toJson, ofJson, ofInteger, hfits, if_true, same, Throughout, parts, List.forall_mem_singleton,
      Unmistakable, beq_self_eq_true]
  | float x, _ => by
    simp only [Throughout, parts, List.forall_mem_singleton, Unmistakable, toJson]
    by_cases hx : x.isFinite = true
    · simp only [hx, if_true, ofJson, same, sameNumber_self hx]
    · simp only [hx, if_false, ofJson, same, Bool.false_eq_true]
  | sequence vs, h => by
    rw [throughout_sequence, toJson, ofJson, same, sameItems_itemsOfJson_itemsToJson vs h.items]
    simp only [Unmistakable, true_and]
  | mapping es, h => by
    obtain ⟨hordered, hvalues⟩ := h.values
    rw [throughout_mapping, toJson, ofJson]
    cases htag : tag? (entriesToJson es) with
    | some tag =>
      obtain ⟨kind, names⟩ := tag
      -- what comes back is an object, and the mapping is one of those that look like objects
      simp only [same, Bool.false_eq_true, false_iff]
      rintro ⟨hself, hparts⟩
      exact hself (likeObject_of_tag? hparts htag)
    | none =>
      have hself : Unmistakable (mapping es) := by
        intro hlike
        obtain ⟨kind, names, hsome⟩ := tag?_of_likeObject hordered hlike
        rw [htag] at hsome
        cases hsome
      simp only [hself, true_and]
      rw [same, Entries.ofList_of_ordered (ordered_entriesOfJson_entriesToJson hordered),
        sameEntries_entriesOfJson_entriesToJson es hvalues]
  | object kind names es, h => by
    obtain ⟨hordered, hvalues⟩ := h.attributes
    rw [throughout_object, ofJson_toJson_object kind names hordered, same]
    simp only [beq_self_eq_true, Bool.true_and, Unmistakable, true_and]
    exact sameEntries_entriesOfJson_entriesToJson es hvalues

/-- Items come back equal to themselves exactly when each of them does. -/
theorem sameItems_itemsOfJson_itemsToJson : (vs : List Rendered) → (∀ v ∈ vs, v.Proper) →
    (sameItems (itemsOfJson (itemsToJson vs)) vs = true ↔ ∀ v ∈ vs, v.Throughout Unmistakable)
  | [], _ => ⟨fun _ _ hv => absurd hv List.not_mem_nil, fun _ => rfl⟩
  | v :: vs, h => by
    obtain ⟨hfirst, hrest⟩ := List.forall_mem_cons.1 h
    rw [itemsToJson, itemsOfJson, sameItems, Bool.and_eq_true, same_ofJson_toJson v hfirst,
      sameItems_itemsOfJson_itemsToJson vs hrest, List.forall_mem_cons]

/-- Entries come back equal to themselves exactly when their values do. -/
theorem sameEntries_entriesOfJson_entriesToJson : (es : List (String × Rendered)) → (∀ e ∈ es, e.2.Proper) →
    (sameEntries (entriesOfJson (entriesToJson es)) es = true ↔ ∀ e ∈ es, e.2.Throughout Unmistakable)
  | [], _ => ⟨fun _ _ he => absurd he List.not_mem_nil, fun _ => rfl⟩
  | (k, v) :: es, h => by
    obtain ⟨hfirst, hrest⟩ := List.forall_mem_cons.1 h
    rw [entriesToJson, entriesOfJson, sameEntries, Bool.and_eq_true, Bool.and_eq_true, same_ofJson_toJson v hfirst,
      sameEntries_entriesOfJson_entriesToJson es hrest, List.forall_mem_cons]
    simp only [beq_self_eq_true, true_and]

end

/-- Reading undoes writing exactly on values without anything that looks like something else: a value comes back
equal to itself if and only if no number in it, at any depth, is infinite or no number at all, and no mapping in
it looks like an object. -/
theorem same_ofJson_toJson_iff {v : Rendered} (h : v.Proper) :
    (ofJson v.toJson).same v = true ↔
      (∀ x, float x ∈ v.parts → x.isFinite = true) ∧ ∀ es, mapping es ∈ v.parts → ¬LikeObject es := by
  rw [same_ofJson_toJson v h]
  constructor
  · intro hparts
    exact ⟨fun x hx => hparts (float x) hx, fun es hes => hparts (mapping es) hes⟩
  · rintro ⟨hfinite, hmappings⟩ u hu
    cases u with
    | float x => exact hfinite x hu
    | mapping es => exact hmappings es hu
    | null | bool _ | integer _ | text _ | sequence _ | object _ _ _ => trivial

/-- A mapping with the three keys of an object comes back as long as its attributes are a text, and comes back
as an object when they are a mapping. -/
theorem same_ofJson_toJson_iff_of_three_keys :
    (∃ v, v = object "K" ["f"]
          [("f", mapping [(attributesKey, text "a"), (kindKey, text "K"), (templateFieldsKey, sequence [])])] ∧
        v.Proper ∧ (ofJson v.toJson).same v = true) ∧
      ∃ v, v = sequence [mapping [(attributesKey, mapping []), (kindKey, text "K"), (templateFieldsKey, sequence [])]] ∧
        v.Proper ∧ (ofJson v.toJson).same v = false := by
  constructor
  · have hproper : (object "K" ["f"]
        [("f", mapping [(attributesKey, text "a"), (kindKey, text "K"),
          (templateFieldsKey, sequence [])])]).Proper := by
      refine ⟨?_, ?_⟩
      · simp only [Ordered, OrderedEntries, OrderedItems, Entries.Ordered, and_true]
        decide
      · simp [Throughout, parts, partsEntries, partsItems]
    refine ⟨_, rfl, hproper, (same_ofJson_toJson_iff hproper).2 ⟨?_, ?_⟩⟩
    · simp [parts, partsEntries, partsItems]
    · rintro es hes ⟨-, -, -, fs, hattributes⟩
      simp only [parts, partsEntries, partsItems, List.append_nil, List.nil_append, List.cons_append, List.mem_cons,
        reduceCtorEq, mapping.injEq, List.not_mem_nil, or_false, false_or] at hes
      subst hes
      rcases hattributes with h | ⟨_, _, h⟩ <;> cases h
  · have hproper : (sequence
        [mapping [(attributesKey, mapping []), (kindKey, text "K"), (templateFieldsKey, sequence [])]]).Proper := by
      refine ⟨?_, ?_⟩
      · simp only [Ordered, OrderedEntries, OrderedItems, Entries.Ordered, and_true, List.map_nil, List.Pairwise.nil]
        decide
      · simp [Throughout, parts, partsEntries, partsItems]
    refine ⟨_, rfl, hproper, Bool.eq_false_iff.2 fun hsame => ?_⟩
    have hpart :
        mapping [(attributesKey, mapping []), (kindKey, text "K"), (templateFieldsKey, sequence [])] ∈
          (sequence [mapping [(attributesKey, mapping []), (kindKey, text "K"),
            (templateFieldsKey, sequence [])]]).parts := by
      simp [parts, partsItems]
    refine ((same_ofJson_toJson_iff hproper).1 hsame).2 _ hpart ?_
    refine ⟨fun k => ?_, ⟨"K", rfl⟩, ⟨[], rfl⟩, [], .inl rfl⟩
    simp only [List.map_cons, List.map_nil, List.mem_cons, List.not_mem_nil, or_false]
    tauto

end SnapshotLedger.Rendered
