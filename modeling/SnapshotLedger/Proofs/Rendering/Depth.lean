import SnapshotLedger.Proofs.Rendering
import SnapshotLedger.Proofs.Rendering.Declared

/-!
# How deep a value may be

The weight of a value says how far below it there is something to render. Rendering heeds it: where the limit
leaves room for the weight no error is about the depth, where it does not there is no value
(`heeds_renderFrom`), and what is rendered within the limit has at most one level more than that. So the limit
is exact, and it bounds the answer (`render_guards_depth`).
-/

namespace SnapshotLedger

namespace Raw

/-- One more than the greatest of some numbers, and zero if there are none. -/
def levelAbove : List Nat → Nat
  | [] => 0
  | n :: ns => max (n + 1) (levelAbove ns)

mutual

/-- How far below the value there is something to render. Items and the values of a mapping are one level
further down. An object takes one level for itself, and those of the attributes that it shows or declares as
template fields which have a value are another one further down. -/
def weight : Raw → Nat
  | null | bool _ | integer _ | float _ | text _ | date _ | timestamp _ => 0
  | sequence vs => levelAbove (itemWeights vs)
  | mapping es => levelAbove ((entryWeights es).map Prod.snd)
  | object _ templateFields shown attributes =>
    1 + levelAbove ((shown ++ templateFields).filterMap fun name => (entryWeights attributes).lookup name)

/-- The weights of items. -/
def itemWeights : List Raw → List Nat
  | [] => []
  | v :: vs => weight v :: itemWeights vs

/-- The weights of values under their keys. -/
def entryWeights : List (String × Raw) → List (String × Nat)
  | [] => []
  | (k, v) :: es => (k, weight v) :: entryWeights es

end

/-- The weights of items, one by one. -/
theorem itemWeights_eq (vs : List Raw) : itemWeights vs = vs.map weight := by
  induction vs with
  | nil => rfl
  | cons v vs ih => rw [itemWeights, ih, List.map_cons]

/-- The weights of values under their keys, one by one. -/
theorem entryWeights_eq (es : List (String × Raw)) : entryWeights es = Entries.mapValues weight es :=
  Entries.eq_mapValues rfl (fun _ _ => rfl) es

/-- There is room for one more than some numbers when there is room for none of them, and for each one level
further down. -/
theorem add_levelAbove_le_iff {depth limit : Nat} {ns : List Nat} :
    depth + levelAbove ns ≤ limit ↔ depth ≤ limit ∧ ∀ n ∈ ns, depth + 1 + n ≤ limit := by
  induction ns with
  | nil => simp [levelAbove]
  | cons n ns ih =>
    have hmax : depth + max (n + 1) (levelAbove ns) ≤ limit ↔
        depth + 1 + n ≤ limit ∧ depth + levelAbove ns ≤ limit := by omega
    rw [levelAbove, hmax, ih, List.forall_mem_cons]
    exact and_left_comm

variable {depth limit : Nat}

/-- There is room for a sequence when there is room for its items one level further down. -/
theorem add_weight_sequence_le_iff {vs : List Raw} :
    depth + (sequence vs).weight ≤ limit ↔ depth ≤ limit ∧ ∀ v ∈ vs, depth + 1 + v.weight ≤ limit := by
  rw [weight, add_levelAbove_le_iff, itemWeights_eq, List.forall_mem_map]

/-- There is room for a mapping when there is room for its values one level further down. -/
theorem add_weight_mapping_le_iff {es : List (String × Raw)} :
    depth + (mapping es).weight ≤ limit ↔ depth ≤ limit ∧ ∀ e ∈ es, depth + 1 + e.2.weight ≤ limit := by
  rw [weight, add_levelAbove_le_iff, entryWeights_eq, Entries.mapValues, List.map_map, List.forall_mem_map]
  rfl

/-- There is room for an object when there is room for it one level further down, and for its attributes two
levels further down. -/
theorem add_weight_object_le_iff {kind : String} {templateFields shown : List String}
    {attributes : List (String × Raw)} :
    depth + (object kind templateFields shown attributes).weight ≤ limit ↔ depth + 1 ≤ limit ∧
      ∀ name ∈ shown ++ templateFields, ∀ v, attributes.lookup name = some v → depth + 2 + v.weight ≤ limit := by
  rw [weight, ← Nat.add_assoc, add_levelAbove_le_iff]
  refine and_congr_right fun _ => ?_
  simp only [List.mem_filterMap, entryWeights_eq, Entries.lookup_mapValues, Option.map_eq_some_iff]
  constructor
  · intro h name hname v hv
    exact h v.weight ⟨name, hname, v, hv, rfl⟩
  · rintro h n ⟨name, hname, v, hv, rfl⟩
    exact h name hname v hv

end Raw

namespace Renderer

/-! ## Answers that heed the limit -/

/-- The answer is a value only if there is room, and an error about the depth only if there is none. -/
structure Heeds {α : Type} (room : Prop) (answer : Except LedgerError α) : Prop where
  ok : ∀ {a}, answer = .ok a → room
  exceeded : ∀ {limit}, answer = .error (.depthExceeded limit) → ¬room

section Answers

variable {α β : Type} {p q : Prop} {x : Except LedgerError α}

/-- What is said of the room may be said in another way. -/
theorem Heeds.congr (h : Heeds p x) (hpq : p ↔ q) : Heeds q x :=
  ⟨fun hok => hpq.1 (h.ok hok), fun he hq => h.exceeded he (hpq.2 hq)⟩

/-- A value needs no room. -/
theorem heeds_ok (a : α) : Heeds True (.ok a : Except LedgerError α) := ⟨fun _ => trivial, nofun⟩

/-- For no items there always is room. -/
theorem heeds_nil (room : α → Prop) : Heeds (∀ a ∈ ([] : List α), room a) (.ok [] : Except LedgerError (List β)) := by
  refine (heeds_ok []).congr ?_
  rw [true_iff]
  intro a ha
  cases ha

/-- An error about anything else says nothing of the room. -/
theorem heeds_error {e : LedgerError} (h : ∀ limit, e ≠ .depthExceeded limit) :
    Heeds p (.error e : Except LedgerError α) := by
  constructor
  · intro a hok
    cases hok
  · intro limit he
    rw [Except.error.injEq] at he
    exact absurd he (h limit)

/-- Where the depth was checked and another step follows, there has to be room for both. -/
theorem Heeds.bind {f : α → Except LedgerError β} (hx : Heeds p x) (hf : ∀ a, Heeds q (f a)) :
    Heeds (p ∧ q) (x >>= f) := by
  cases x with
  | error e =>
    refine ⟨nofun, fun he hroom => ?_⟩
    cases he
    exact hx.exceeded rfl hroom.1
  | ok a => exact ⟨fun hok => ⟨hx.ok rfl, (hf a).ok hok⟩, fun he hroom => (hf a).exceeded he hroom.2⟩

/-- A value may be changed. -/
theorem Heeds.map (hx : Heeds p x) (f : α → β) : Heeds p (x.map f) := by
  cases x with
  | error e =>
    refine ⟨nofun, fun he => ?_⟩
    cases he
    exact hx.exceeded rfl
  | ok a => exact ⟨fun _ => hx.ok rfl, nofun⟩

/-- For a list there has to be room for each of its items. -/
theorem heeds_mapM {f : α → Except LedgerError β} {room : α → Prop} {l : List α} (h : ∀ a ∈ l, Heeds (room a) (f a)) :
    Heeds (∀ a ∈ l, room a) (l.mapM f) := by
  induction l with
  | nil => exact heeds_nil room
  | cons a l ih =>
    obtain ⟨hfirst, hrest⟩ := List.forall_mem_cons.1 h
    rw [List.mapM_cons]
    refine (hfirst.bind fun b => (ih hrest).bind fun bs => heeds_ok (b :: bs)).congr ?_
    rw [and_true, List.forall_mem_cons]

end Answers

variable {r : Renderer} {field : String}

/-- The check of the depth asks for room at that depth. -/
theorem heeds_checkDepth (depth : Nat) : Heeds (depth ≤ r.depthLimit) (r.checkDepth depth) := by
  unfold checkDepth
  split
  · next hdeep => exact ⟨nofun, fun _ => Nat.not_le_of_lt hdeep⟩
  · next hroom => exact ⟨fun _ => Nat.le_of_not_lt hroom, nofun⟩

/-- No error about a text is one about the depth. -/
theorem heeds_renderText (resolve : Bool) (s : String) : Heeds True (r.renderText field resolve s) := by
  unfold renderText
  split
  · split
    · exact heeds_ok _
    · exact heeds_error (by simp)
  · exact heeds_ok _

/-- For the attributes that are picked there has to be room for each that has a result. -/
theorem heeds_pickAttributes (kind : String) (templateFields : List String)
    {results : List (String × Except LedgerError Rendered)} {room : String → Prop}
    (hsome : ∀ name result, results.lookup name = some result → Heeds (room name) result)
    (hnone : ∀ name, results.lookup name = none → room name) (names : List String) :
    Heeds (∀ name ∈ names, room name) (pickAttributes kind templateFields results names) := by
  induction names with
  | nil => exact heeds_nil room
  | cons name names ih =>
    rw [pickAttributes]
    split
    · next result hlookup =>
      refine ((hsome name result hlookup).bind fun v => ih.bind fun es => heeds_ok ((name, v) :: es)).congr ?_
      rw [and_true, List.forall_mem_cons]
    · next hlookup =>
      split
      · exact heeds_error (by simp)
      · refine ih.congr ?_
        rw [List.forall_mem_cons]
        exact (and_iff_right (hnone name hlookup)).symm

/-! ## Values -/

mutual

/-- Rendering a value at some depth asks for room for its weight below that. -/
theorem heeds_renderFrom : (v : Raw) → ∀ (depth : Nat) (resolve : Bool),
    Heeds (depth + v.weight ≤ r.depthLimit) (r.renderFrom field depth resolve v)
  | .null, depth, _ | .bool _, depth, _ | .integer _, depth, _ | .date _, depth, _ | .timestamp _, depth, _ => by
    rw [renderFrom, Raw.weight]
    exact (heeds_checkDepth depth).map _
  | .float x, depth, _ => by
    have hanswer :
    Heeds True (if x.isFinite then .ok (Rendered.float x) else .error (.invalidField (.notFinite field x))) := by
      split
      · exact heeds_ok _
      · exact heeds_error (by simp)
    rw [renderFrom, Raw.weight]
    exact ((heeds_checkDepth depth).bind fun _ => hanswer).congr (by rw [and_true, Nat.add_zero])
  | .text s, depth, resolve => by
    rw [renderFrom, Raw.weight]
    exact ((heeds_checkDepth depth).bind fun _ => heeds_renderText resolve s).congr (by rw [and_true, Nat.add_zero])
  | .sequence vs, depth, resolve => by
    rw [renderFrom, renderItems_eq_mapM]
    have hitems := heeds_mapM fun v hv => heeds_of_mem_items vs v hv (depth + 1) resolve
    refine ((heeds_checkDepth depth).bind fun _ => hitems.bind fun ws => heeds_ok (Rendered.sequence ws)).congr ?_
    rw [and_true, Raw.add_weight_sequence_le_iff]
  | .mapping es, depth, resolve => by
    rw [renderFrom, renderEntries_eq_mapM]
    have hentries := heeds_mapM fun e he => (heeds_of_mem_entries es e he (depth + 1) resolve).map fun w => (e.1, w)
    refine ((heeds_checkDepth depth).bind fun _ => hentries.bind fun fs => heeds_ok (Rendered.mapping fs)).congr ?_
    rw [and_true, Raw.add_weight_mapping_le_iff]
  | .object kind templateFields shown attributes, depth, resolve => by
    rw [renderFrom]
    -- an attribute asks for room two levels further down, and one without a value for none
    have hsome : ∀ name result,
        (r.renderAttributes field (depth + 2) resolve templateFields attributes).lookup name = some result →
        Heeds (∀ v, attributes.lookup name = some v → depth + 2 + v.weight ≤ r.depthLimit) result := by
      intro name result hresult
      rw [lookup_renderAttributes, Option.map_eq_some_iff] at hresult
      obtain ⟨v, hv, rfl⟩ := hresult
      refine (heeds_of_mem_entries attributes _ (Entries.mem_of_lookup hv) (depth + 2) _).congr ?_
      rw [hv]
      simp only [Option.some.injEq, forall_eq']
    have hnone : ∀ name, (r.renderAttributes field (depth + 2) resolve templateFields attributes).lookup name = none →
        ∀ v, attributes.lookup name = some v → depth + 2 + v.weight ≤ r.depthLimit := by
      intro name hresult v hv
      rw [lookup_renderAttributes, hv] at hresult
      cases hresult
    have hpicked := heeds_pickAttributes kind templateFields hsome hnone (shownNames templateFields shown)
    refine ((heeds_checkDepth (depth + 1)).bind fun _ => hpicked.bind fun es =>
      heeds_ok (Rendered.object kind templateFields (Entries.ofList es))).congr ?_
    rw [and_true, Raw.add_weight_object_le_iff]
    simp only [mem_shownNames, List.mem_append]

/-- Rendering each item asks for room for its weight. -/
theorem heeds_of_mem_items : (vs : List Raw) → ∀ v ∈ vs, ∀ (depth : Nat) (resolve : Bool),
    Heeds (depth + v.weight ≤ r.depthLimit) (r.renderFrom field depth resolve v)
  | [] => fun _ h => absurd h List.not_mem_nil
  | v :: vs => List.forall_mem_cons.2 ⟨heeds_renderFrom v, heeds_of_mem_items vs⟩

/-- Rendering the value of each entry asks for room for its weight. -/
theorem heeds_of_mem_entries : (es : List (String × Raw)) → ∀ e ∈ es, ∀ (depth : Nat) (resolve : Bool),
    Heeds (depth + e.2.weight ≤ r.depthLimit) (r.renderFrom field depth resolve e.2)
  | [] => fun _ h => absurd h List.not_mem_nil
  | (_, v) :: es => List.forall_mem_cons.2 ⟨heeds_renderFrom v, heeds_of_mem_entries es⟩

end

/-- The limit is exact, and it bounds the answer. A value whose weight is within the limit is never refused for
its depth, one whose weight is beyond it is never rendered, and what is rendered has at most one level more than
the limit. -/
theorem render_guards_depth (r : Renderer) (field : String) (v : Raw) :
    (v.weight ≤ r.depthLimit → ∀ limit, r.render field v ≠ .error (.depthExceeded limit)) ∧
      (r.depthLimit < v.weight → ∃ e, r.render field v = .error e) ∧
      ∀ w, r.render field v = .ok w → w.toJson.nesting ≤ r.depthLimit + 1 := by
  have hheeds : Heeds (v.weight ≤ r.depthLimit) (r.render field v) :=
    (heeds_renderFrom v 0 true).congr (by rw [Nat.zero_add])
  refine ⟨fun hroom limit hexceeded => hheeds.exceeded hexceeded hroom, fun hdeep => ?_, fun w hw => ?_⟩
  · cases hanswer : r.render field v with
    | error e => exact ⟨e, rfl⟩
    | ok w => exact absurd (hheeds.ok hanswer) (Nat.not_le_of_lt hdeep)
  · exact (rendersTo_renderFrom Rendered.admits_true v (fun _ _ => trivial) hw).shallow

/-- An object takes one level, its attributes the next one, and what stands in the sequence below an attribute
the third. -/
example : (Raw.object "K" ["f"] [] [("f", .sequence [.null])]).weight = 3 := by decide

end Renderer

end SnapshotLedger
