import SnapshotLedger.Proofs.Rendered.Encoding
import SnapshotLedger.Proofs.Rendering.Declared
import SnapshotLedger.Proofs.Text.Search
import SnapshotLedger.Raw.Decode

/-!
# Plain data is rendered to itself

A document without marks of templates and without objects that stand for something else is read as a value, and
whatever the engine that value is rendered to the same document, the order of members aside
(`render_plain_data`). Two things are not kept. An integer too large for a signed word is replaced by a binary
number when it is read (`Json.narrowed`). And a document with more levels than the limit is refused.
-/

namespace SnapshotLedger

namespace Json

/-- The keys by which an object with one member stands for something else than plain data. -/
def tagKeys : List String := ["$date", "$timestamp", "$object"]

mutual

/-- No text has marks of templates, and no object stands for something else than plain data. -/
def Inert : Json → Prop
  | null | bool _ | integer _ | float _ => True
  | string s => ¬['{', '{'] <:+: s.toList ∧ ¬['{', '%'] <:+: s.toList ∧ ¬['{', '#'] <:+: s.toList
  | array vs => InertItems vs
  | object ms => (∀ e, ms = [e] → e.1 ∉ tagKeys) ∧ InertMembers ms

/-- All items are inert. -/
def InertItems : List Json → Prop
  | [] => True
  | v :: vs => Inert v ∧ InertItems vs

/-- The values of all members are inert. -/
def InertMembers : List (String × Json) → Prop
  | [] => True
  | (_, v) :: ms => Inert v ∧ InertMembers ms

end

mutual

/-- How far below the document its deepest value stands. -/
def height : Json → Nat
  | null | bool _ | integer _ | float _ | string _ => 0
  | array vs => heightItems vs
  | object ms => heightMembers ms

/-- How far below an array its deepest value stands. -/
def heightItems : List Json → Nat
  | [] => 0
  | v :: vs => max (height v + 1) (heightItems vs)

/-- How far below an object its deepest value stands. -/
def heightMembers : List (String × Json) → Nat
  | [] => 0
  | (_, v) :: ms => max (height v + 1) (heightMembers ms)

end

/-- An array fits below a depth when its items fit one level further down. -/
theorem add_heightItems_le_iff {depth limit : Nat} {vs : List Json} :
    depth + heightItems vs ≤ limit ↔ depth ≤ limit ∧ ∀ v ∈ vs, depth + 1 + v.height ≤ limit := by
  induction vs with
  | nil => simp [heightItems]
  | cons v vs ih =>
    have hmax : depth + max (v.height + 1) (heightItems vs) ≤ limit ↔
        depth + 1 + v.height ≤ limit ∧ depth + heightItems vs ≤ limit := by omega
    rw [heightItems, hmax, ih, List.forall_mem_cons]
    exact and_left_comm

/-- An object fits below a depth when the values of its members fit one level further down. -/
theorem add_heightMembers_le_iff {depth limit : Nat} {ms : List (String × Json)} :
    depth + heightMembers ms ≤ limit ↔ depth ≤ limit ∧ ∀ e ∈ ms, depth + 1 + e.2.height ≤ limit := by
  induction ms with
  | nil => simp [heightMembers]
  | cons e ms ih =>
    obtain ⟨k, v⟩ := e
    have hmax : depth + max (v.height + 1) (heightMembers ms) ≤ limit ↔
        depth + 1 + v.height ≤ limit ∧ depth + heightMembers ms ≤ limit := by omega
    rw [heightMembers, hmax, ih, List.forall_mem_cons]
    exact and_left_comm

end Json

/-! ## Values that carry a document -/

namespace Rendered

/-- Items written as the narrowed documents, the order of members aside. -/
theorem sorted_items_of_forall₂ {ws : List Rendered} {js : List Json}
    (h : List.Forall₂ (fun w j => w.toJson.sorted = j.narrowed.sorted) ws js) :
    Json.sortedItems (itemsToJson ws) = Json.sortedItems (Json.narrowedItems js) := by
  induction h with
  | nil => rfl
  | cons hfirst _ ih => rw [itemsToJson, Json.narrowedItems, Json.sortedItems, Json.sortedItems, hfirst, ih]

/-- Entries written as members with the narrowed documents, the order of members aside. -/
theorem sorted_members_of_forall₂ {fs : List (String × Rendered)} {ms : List (String × Json)}
    (h : List.Forall₂ (fun f m => f.1 = m.1 ∧ f.2.toJson.sorted = m.2.narrowed.sorted) fs ms) :
    Json.sortedMembers (entriesToJson fs) = Json.sortedMembers (Json.narrowedMembers ms) := by
  induction h with
  | nil => rfl
  | @cons f m fs ms hfirst _ ih =>
    obtain ⟨k, w⟩ := f
    obtain ⟨l, j⟩ := m
    obtain ⟨rfl, hvalue⟩ := hfirst
    rw [entriesToJson, Json.narrowedMembers, Json.sortedMembers, Json.sortedMembers, hvalue, ih]

end Rendered

namespace Raw

/-- Wherever there is room for its levels, the value is rendered to the narrowed document, the order of members
aside; elsewhere it is refused for its depth. -/
def Carries (v : Raw) (j : Json) : Prop := ∀ (r : Renderer) (field : String) (depth : Nat) (resolve : Bool),
  depth + j.height ≤ r.depthLimit ∧
    (∃ w, r.renderFrom field depth resolve v = .ok w ∧ w.toJson.sorted = j.narrowed.sorted) ∨
  ¬depth + j.height ≤ r.depthLimit ∧ r.renderFrom field depth resolve v = .error (.depthExceeded r.depthLimit)

/-- A value that is checked for its depth and nothing else carries the document that it is rendered to. -/
theorem carries_leaf {v : Raw} {w : Rendered} {j : Json} (hheight : j.height = 0)
    (hsorted : w.toJson.sorted = j.narrowed.sorted)
    (hrender : ∀ (r : Renderer) field depth resolve, r.renderFrom field depth resolve v =
      (r.checkDepth depth).map fun _ => w) :
    v.Carries j := by
  intro r field depth resolve
  rw [hrender, hheight, Renderer.checkDepth, Nat.add_zero]
  by_cases hdeep : r.depthLimit < depth
  · rw [if_pos hdeep]
    exact .inr ⟨Nat.not_le_of_lt hdeep, rfl⟩
  · rw [if_neg hdeep]
    exact .inl ⟨Nat.le_of_not_lt hdeep, w, rfl, hsorted⟩

/-- A finite binary number carries itself. -/
theorem carries_float {x : Binary64} (h : x.isFinite = true) {j : Json} (hheight : j.height = 0)
    (hj : j.narrowed = .float x) :
    (float x).Carries j := by
  have hsorted : (Rendered.float x).toJson.sorted = j.narrowed.sorted := by
    rw [hj, Rendered.toJson, if_pos h]
  refine carries_leaf hheight hsorted fun r field depth resolve => ?_
  rw [Renderer.renderFrom, if_pos h]
  cases r.checkDepth depth <;> rfl

/-- A text without marks carries itself. -/
theorem carries_text {s : String} (h : (Json.string s).Inert) : (text s).Carries (.string s) := by
  have hmarks : Template.hasMarks s = false := by
    simp only [Json.Inert, ← Text.occursIn_iff, Bool.not_eq_true] at h
    simp [Template.hasMarks, Template.hasStatement, h]
  refine carries_leaf (w := .text s) rfl rfl fun r field depth resolve => ?_
  rw [Renderer.renderFrom, Renderer.renderText, hmarks, Bool.and_false]
  cases r.checkDepth depth <;> rfl

variable {r : Renderer} {field : String} {depth : Nat} {resolve : Bool}

/-- Items that carry documents are rendered to these where there is room for all of them. -/
theorem renderItems_of_carries {vs : List Raw} {js : List Json} (h : List.Forall₂ Carries vs js) :
    (∀ j ∈ js, depth + j.height ≤ r.depthLimit) ∧
      (∃ ws, r.renderItems field depth resolve vs = .ok ws ∧
        List.Forall₂ (fun w j => w.toJson.sorted = j.narrowed.sorted) ws js) ∨
    ¬(∀ j ∈ js, depth + j.height ≤ r.depthLimit) ∧
      r.renderItems field depth resolve vs = .error (.depthExceeded r.depthLimit) := by
  rw [Renderer.renderItems_eq_mapM]
  exact mapM_forall₂ (h.imp fun _ _ hcarry => hcarry r field depth resolve)

/-- Entries whose values carry documents are rendered to members with these where there is room for all of them. -/
theorem renderEntries_of_carries {es : List (String × Raw)} {ms : List (String × Json)}
    (h : List.Forall₂ (fun e m => e.1 = m.1 ∧ Carries e.2 m.2) es ms) :
    (∀ m ∈ ms, depth + m.2.height ≤ r.depthLimit) ∧
      (∃ fs, r.renderEntries field depth resolve es = .ok fs ∧
        List.Forall₂ (fun f m => f.1 = m.1 ∧ f.2.toJson.sorted = m.2.narrowed.sorted) fs ms) ∨
    ¬(∀ m ∈ ms, depth + m.2.height ≤ r.depthLimit) ∧
      r.renderEntries field depth resolve es = .error (.depthExceeded r.depthLimit) := by
  rw [Renderer.renderEntries_eq_mapM]
  refine mapM_forall₂ (h.imp ?_)
  rintro ⟨k, v⟩ ⟨l, j⟩ ⟨rfl, hcarry⟩
  rcases hcarry r field depth resolve with ⟨hle, w, hw, hsorted⟩ | ⟨hdeep, herror⟩
  · exact .inl ⟨hle, (k, w), by rw [hw]; rfl, rfl, hsorted⟩
  · exact .inr ⟨hdeep, by rw [herror]; rfl⟩

/-- A sequence of values that carry documents carries the array of these. -/
theorem carries_sequence {vs : List Raw} {js : List Json} (h : List.Forall₂ Carries vs js) :
    (sequence vs).Carries (.array js) := by
  intro r field depth resolve
  rw [Renderer.renderFrom, Json.height, Json.add_heightItems_le_iff, Renderer.checkDepth]
  by_cases hdeep : r.depthLimit < depth
  · rw [if_pos hdeep]
    exact .inr ⟨fun hfits => Nat.not_le_of_lt hdeep hfits.1, rfl⟩
  · rw [if_neg hdeep]
    rcases renderItems_of_carries h with ⟨hall, ws, hws, hsorted⟩ | ⟨hsome, herror⟩
    · refine .inl ⟨⟨Nat.le_of_not_lt hdeep, hall⟩, .sequence ws, by rw [hws]; rfl, ?_⟩
      rw [Rendered.toJson, Json.narrowed, Json.sorted, Json.sorted, Rendered.sorted_items_of_forall₂ hsorted]
    · exact .inr ⟨fun hfits => hsome hfits.2, by rw [herror]; rfl⟩

/-- A mapping of values that carry documents carries the object with these as members. -/
theorem carries_mapping {es : List (String × Raw)} {ms : List (String × Json)} (hkeys : (ms.map Prod.fst).Nodup)
    (h : List.Forall₂ (fun e m => e.1 = m.1 ∧ Carries e.2 m.2) es ms) :
    (mapping (Entries.ofList es)).Carries (.object ms) := by
  intro r field depth resolve
  rw [Renderer.renderFrom, Json.height, Json.add_heightMembers_le_iff, Renderer.checkDepth]
  by_cases hdeep : r.depthLimit < depth
  · rw [if_pos hdeep]
    exact .inr ⟨fun hfits => Nat.not_le_of_lt hdeep hfits.1, rfl⟩
  · rw [if_neg hdeep]
    -- the entries are rendered in order of their keys, and none of them is lost since no key comes twice
    have hmembers : ∀ m, m ∈ Entries.ofList ms ↔ m ∈ ms := fun m => (Entries.perm_ofList hkeys).mem_iff
    rcases renderEntries_of_carries (Entries.forall₂_ofList h) with ⟨hall, fs, hfs, hsorted⟩ | ⟨hsome, herror⟩
    · refine .inl ⟨⟨Nat.le_of_not_lt hdeep, fun m hm => hall m ((hmembers m).2 hm)⟩, .mapping fs, by rw [hfs]; rfl, ?_⟩
      rw [Rendered.toJson, Json.narrowed, Json.sorted, Json.sorted, Rendered.sorted_members_of_forall₂ hsorted]
      simp only [Json.sortedMembers_eq, Json.narrowedMembers_eq, Entries.mapValues_ofList]
      rw [Entries.ofList_of_ordered (Entries.ordered_ofList _)]
    · exact .inr ⟨fun hfits => hsome fun m hm => hfits.2 m ((hmembers m).1 hm), by rw [herror]; rfl⟩

/-! ## Documents that are read -/

/-- An object that stands for nothing else is read as a mapping. -/
theorem ofJson_object {ms : List (String × Json)} (h : ∀ e, ms = [e] → e.1 ∉ Json.tagKeys) :
    ofJson (.object ms) = (entriesOfJson ms).map fun es => mapping (Entries.ofList es) := by
  rcases ms with _ | ⟨⟨k, v⟩, _ | ⟨e, ms⟩⟩
  · rw [ofJson]
    intro key v hone
    cases hone
  · have hkey := h (k, v) rfl
    simp only [Json.tagKeys, List.mem_cons, List.not_mem_nil, or_false, not_or] at hkey
    rw [ofJson, if_neg hkey.1, if_neg hkey.2.1, if_neg hkey.2.2, entriesOfJson]
    cases ofJson v <;> rfl
  · rw [ofJson]
    intro key v hone
    cases hone

/-- An integer of one word is read as what it is narrowed to. -/
theorem carries_ofInteger {n : Int} (h : (Json.integer n).WellFormed) : (ofInteger n).Carries (.integer n) := by
  rcases Json.narrowed_integer h with ⟨hsigned, hnarrowed⟩ | ⟨hlarge, hfinite, hnarrowed⟩
  · rw [ofInteger, if_pos hsigned]
    refine carries_leaf (w := .integer n) rfl ?_ ?_
    · rw [hnarrowed, Rendered.toJson]
    · intro r field depth resolve
      rw [Renderer.renderFrom]
  · rw [ofInteger, if_neg hlarge]
    exact carries_float hfinite rfl hnarrowed

mutual

/-- Inert documents are read as values that carry them. -/
theorem carries_ofJson : (j : Json) → j.WellFormed → j.Inert → ∃ v, ofJson j = .ok v ∧ v.Carries j
  | .null, _, _ => by
    refine ⟨null, by rw [ofJson], carries_leaf (w := .null) rfl rfl fun r field depth resolve => ?_⟩
    rw [Renderer.renderFrom]
  | .bool b, _, _ => by
    refine ⟨bool b, by rw [ofJson], carries_leaf (w := .bool b) rfl rfl fun r field depth resolve => ?_⟩
    rw [Renderer.renderFrom]
  | .integer n, hw, _ => ⟨ofInteger n, by rw [ofJson], carries_ofInteger hw⟩
  | .float x, hw, _ => ⟨float x, by rw [ofJson], carries_float hw rfl rfl⟩
  | .string s, _, hi => ⟨text s, by rw [ofJson], carries_text hi⟩
  | .array vs, hw, hi => by
    obtain ⟨ws, hws, hcarry⟩ := carries_itemsOfJson vs hw hi
    exact ⟨sequence ws, by rw [ofJson, hws]; rfl, carries_sequence hcarry⟩
  | .object ms, hw, hi => by
    obtain ⟨es, hes, hcarry⟩ := carries_entriesOfJson ms hw.2 hi.2
    exact ⟨mapping (Entries.ofList es), by rw [ofJson_object hi.1, hes]; rfl, carries_mapping hw.1 hcarry⟩

/-- Inert items are read as values that carry them. -/
theorem carries_itemsOfJson : (vs : List Json) → Json.WellFormedItems vs → Json.InertItems vs →
    ∃ ws, itemsOfJson vs = .ok ws ∧ List.Forall₂ Carries ws vs
  | [], _, _ => ⟨[], by rw [itemsOfJson], .nil⟩
  | v :: vs, hw, hi => by
    obtain ⟨w, hfirst, hcarry⟩ := carries_ofJson v hw.1 hi.1
    obtain ⟨ws, hrest, hcarries⟩ := carries_itemsOfJson vs hw.2 hi.2
    exact ⟨w :: ws, by rw [itemsOfJson, hfirst, hrest]; rfl, .cons hcarry hcarries⟩

/-- Members with inert values are read as entries with values that carry these. -/
theorem carries_entriesOfJson : (ms : List (String × Json)) → Json.WellFormedMembers ms → Json.InertMembers ms →
    ∃ es, entriesOfJson ms = .ok es ∧ List.Forall₂ (fun e m => e.1 = m.1 ∧ Carries e.2 m.2) es ms
  | [], _, _ => ⟨[], by rw [entriesOfJson], .nil⟩
  | (k, v) :: ms, hw, hi => by
    obtain ⟨w, hfirst, hcarry⟩ := carries_ofJson v hw.1 hi.1
    obtain ⟨es, hrest, hcarries⟩ := carries_entriesOfJson ms hw.2 hi.2
    exact ⟨(k, w) :: es, by rw [entriesOfJson, hfirst, hrest]; rfl, .cons ⟨rfl, hcarry⟩ hcarries⟩

end

end Raw

namespace Renderer

/-- Plain data of one-word integers, finite binary numbers and objects without repeated keys is always read, and
whatever the engine it is rendered to itself, the order of members aside, when the limit has room for its
levels, and refused for its depth when it has not. Only integers too large for a signed word are not kept: they
are replaced by the nearest binary numbers. -/
theorem render_plain_data {j : Json} (hw : j.WellFormed) (hi : j.Inert) :
    ∃ v, Raw.ofJson j = .ok v ∧
      (∀ (r : Renderer) (field : String),
        j.height ≤ r.depthLimit ∧ (∃ w, r.render field v = .ok w ∧ w.toJson.sorted = j.narrowed.sorted) ∨
        r.depthLimit < j.height ∧ r.render field v = .error (.depthExceeded r.depthLimit)) ∧
      (j.narrowed = j ↔ ∀ n ∈ j.integers, n ≤ Json.greatestInteger) := by
  obtain ⟨v, hread, hcarry⟩ := Raw.carries_ofJson j hw hi
  refine ⟨v, hread, fun r field => ?_, Json.narrowed_eq_self_iff j⟩
  have hrender := hcarry r field 0 true
  rw [Nat.zero_add, Nat.not_le] at hrender
  exact hrender

/-- An array with a text and an object that has the greatest integers of signed and unsigned words. -/
def mixed :
    Json := .array [.string "a", .object [("z", .integer 9223372036854775807), ("b", .integer 18446744073709551615)]]

theorem render_plain_data_of_mixed : mixed.WellFormed ∧ mixed.Inert ∧
    ∃ v, Raw.ofJson mixed = .ok v ∧
      (∀ (r : Renderer) (field : String),
        mixed.height ≤ r.depthLimit ∧ (∃ w, r.render field v = .ok w ∧ w.toJson.sorted = mixed.narrowed.sorted) ∨
        r.depthLimit < mixed.height ∧ r.render field v = .error (.depthExceeded r.depthLimit)) ∧
      (mixed.narrowed = mixed ↔ ∀ n ∈ mixed.integers, n ≤ Json.greatestInteger) := by
  have hw : mixed.WellFormed := by
    simp only [mixed, Json.WellFormed, Json.WellFormedItems, Json.WellFormedMembers]
    decide
  have hi : mixed.Inert := by
    simp only [mixed, Json.Inert, Json.InertItems, Json.InertMembers]
    exact ⟨by decide, ⟨by simp, trivial, trivial, trivial⟩, trivial⟩
  exact ⟨hw, hi, render_plain_data hw hi⟩

/-- The greatest integer of an unsigned word is plain data, but under no engine and at no limit is it rendered
to itself. -/
theorem render_alters_greatest_unsigned :
    (Json.integer 18446744073709551615).WellFormed ∧ (Json.integer 18446744073709551615).Inert ∧
    ∃ v, Raw.ofJson (.integer 18446744073709551615) = .ok v ∧ ∀ (r : Renderer) (field : String),
      ∃ w, r.render field v = .ok w ∧ w.toJson.sorted ≠ (Json.integer 18446744073709551615).sorted := by
  have hw : (Json.integer 18446744073709551615).WellFormed := by
    rw [Json.WellFormed]
    decide
  refine ⟨hw, trivial, Raw.ofInteger 18446744073709551615, by rw [Raw.ofJson], fun r field => ?_⟩
  rcases Raw.carries_ofInteger hw r field 0 true with ⟨-, w, hrender, hsorted⟩ | ⟨hdeep, -⟩
  · refine ⟨w, hrender, fun hsame => ?_⟩
    rw [hsorted, Json.narrowed, if_neg (by decide)] at hsame
    cases hsame
  · exact absurd (Nat.zero_le _) hdeep

end Renderer

end SnapshotLedger
