import SnapshotLedger.Proofs.Raw
import SnapshotLedger.Proofs.Rendered.Legible
import SnapshotLedger.Rendering

/-!
# What rendering leaves

The leaves of a rendered value are nulls, flags, texts, finite numbers and integers of the value that was
rendered, and it has no more levels than the limit leaves below the depth at which it was rendered, the level at
the limit included (`rendersTo_renderFrom`). So the rendered fields of an owner have at most one level more than
the limit (`rendersTo_renderOwner`), and they are written as what they are (`writable_renderOwner`).
-/

namespace SnapshotLedger

namespace Renderer

open Rendered

/-- What a value may be rendered to at some depth. -/
structure RendersTo (p : Rendered → Prop) (r : Renderer) (depth : Nat) (v : Rendered) : Prop where
  leaves : v.Leafwise p
  shallow : v.toJson.nesting + depth ≤ r.depthLimit + 1

variable {p : Rendered → Prop} {r : Renderer}

/-- What passes the check of the depth is not below the limit. -/
theorem le_of_checkDepth {depth : Nat} {u : Unit} (h : r.checkDepth depth = .ok u) : depth ≤ r.depthLimit := by
  unfold checkDepth at h
  split at h
  · cases h
  · next hle => exact Nat.not_lt.1 hle

/-- A leaf may stand wherever the check of the depth passes. -/
theorem rendersTo_leaf {depth : Nat} {u : Unit} (hdepth : r.checkDepth depth = .ok u) {v : Rendered}
    (hleaf : v.shape = .null) (hv : p v) : RendersTo p r depth v where
  leaves := leafwise_leaf hleaf hv
  shallow := by
    have hle := le_of_checkDepth hdepth
    rw [← nesting_shape, hleaf]
    simp only [toJson, Json.nesting]
    omega

/-- What passes the check of the depth is rendered to one leaf. -/
theorem rendersTo_of_map {depth : Nat} {v w : Rendered} (h : (r.checkDepth depth).map (fun _ => w) = .ok v)
    (hleaf : w.shape = .null) (hw : p w) : RendersTo p r depth v := by
  obtain ⟨u, hdepth, rfl⟩ := map_eq_ok h
  exact rendersTo_leaf hdepth hleaf hw

/-- A text is rendered to a text, resolved or not. -/
theorem exists_text_of_renderText {field : String} {resolve : Bool} {s : String} {v : Rendered}
    (h : r.renderText field resolve s = .ok v) : ∃ t, v = .text t := by
  unfold renderText at h
  split at h
  · split at h
    · cases h
      exact ⟨_, rfl⟩
    · cases h
  · cases h
    exact ⟨s, rfl⟩

/-- What is true of all attributes that can be rendered is true of those that are picked. -/
theorem forall_pickAttributes {q : Rendered → Prop} {kind : String} {templateFields : List String}
    {results : List (String × Except LedgerError Rendered)} (hresults : ∀ e ∈ results, ∀ v, e.2 = .ok v → q v)
    {names : List String} {es : List (String × Rendered)}
    (h : pickAttributes kind templateFields results names = .ok es) :
    ∀ e ∈ es, q e.2 := by
  induction names generalizing es with
  | nil =>
    cases h
    exact fun _ he => absurd he List.not_mem_nil
  | cons name names ih =>
    rw [pickAttributes] at h
    split at h
    · next result hlookup =>
      obtain ⟨v, hv, h⟩ := bind_eq_ok h
      obtain ⟨rest, hrest, h⟩ := bind_eq_ok h
      cases h
      obtain ⟨front, back, rfl, -⟩ := List.lookup_eq_some_iff.1 hlookup
      have hfirst := hresults (name, result) (List.mem_append_right _ List.mem_cons_self) v hv
      exact List.forall_mem_cons.2 ⟨hfirst, ih hrest⟩
    · split at h
      · cases h
      · exact ih h

mutual

/-- What a value is rendered to has leaves of the admitted kinds, and as few levels as the depth asks for. -/
theorem rendersTo_renderFrom (hp : Admits p) {field : String} : (v : Raw) → (∀ n ∈ v.integers, p (.integer n)) →
    ∀ {depth : Nat} {resolve : Bool} {w : Rendered}, r.renderFrom field depth resolve v = .ok w → RendersTo p r depth w
  | .null, _, _, _, _, h => by
    rw [renderFrom] at h
    exact rendersTo_of_map h rfl hp.null
  | .bool b, _, _, _, _, h => by
    rw [renderFrom] at h
    exact rendersTo_of_map h rfl (hp.bool b)
  | .integer n, hn, _, _, _, h => by
    rw [renderFrom] at h
    exact rendersTo_of_map h rfl (hn n (by simp [Raw.integers]))
  | .date _, _, _, _, _, h | .timestamp _, _, _, _, _, h => by
    rw [renderFrom] at h
    exact rendersTo_of_map h rfl (hp.text _)
  | .float x, _, _, _, _, h => by
    rw [renderFrom] at h
    obtain ⟨u, hdepth, h⟩ := bind_eq_ok h
    split at h
    · next hfinite =>
      cases h
      exact rendersTo_leaf hdepth rfl (hp.float x hfinite)
    · cases h
  | .text _, _, _, _, _, h => by
    rw [renderFrom] at h
    obtain ⟨u, hdepth, h⟩ := bind_eq_ok h
    obtain ⟨t, rfl⟩ := exists_text_of_renderText h
    exact rendersTo_leaf hdepth rfl (hp.text t)
  | .sequence vs, hn, depth, _, _, h => by
    rw [renderFrom] at h
    obtain ⟨u, hdepth, h⟩ := bind_eq_ok h
    obtain ⟨ws, hws, h⟩ := bind_eq_ok h
    cases h
    rw [Raw.integers] at hn
    have hitems := rendersTo_renderItems hp vs hn hws
    have hle := le_of_checkDepth hdepth
    have hlevels : Json.nestingItems (itemsToJson ws) ≤ r.depthLimit - depth := nestingItems_le fun w hw => by
      have hshallow := (hitems w hw).shallow
      omega
    refine ⟨leafwise_sequence fun w hw => (hitems w hw).leaves, ?_⟩
    simp only [toJson, Json.nesting]
    omega
  | .mapping es, hn, depth, _, _, h => by
    rw [renderFrom] at h
    obtain ⟨u, hdepth, h⟩ := bind_eq_ok h
    obtain ⟨fs, hfs, h⟩ := bind_eq_ok h
    cases h
    rw [Raw.integers] at hn
    have hentries := rendersTo_renderEntries hp es hn hfs
    have hle := le_of_checkDepth hdepth
    have hlevels : Json.nestingMembers (entriesToJson fs) ≤ r.depthLimit - depth := nestingMembers_le fun e he => by
      have hshallow := (hentries e he).shallow
      omega
    refine ⟨leafwise_entries fun e he => (hentries e he).leaves, ?_⟩
    simp only [toJson, Json.nesting]
    omega
  | .object kind templateFields _ attributes, hn, depth, _, _, h => by
    rw [renderFrom] at h
    obtain ⟨u, hdepth, h⟩ := bind_eq_ok h
    obtain ⟨es, hes, h⟩ := bind_eq_ok h
    cases h
    rw [Raw.integers] at hn
    have hpicked := forall_pickAttributes (rendersTo_renderAttributes hp attributes hn) hes
    have hentries : ∀ e ∈ Entries.ofList es, RendersTo p r (depth + 2) e.2 := fun e he =>
      hpicked e (Entries.mem_of_mem_ofList he)
    have hle := le_of_checkDepth hdepth
    have hlevels : Json.nestingMembers (entriesToJson (Entries.ofList es)) ≤ r.depthLimit + 1 - (depth + 2) :=
      nestingMembers_le fun e he => by
        have hshallow := (hentries e he).shallow
        omega
    refine ⟨leafwise_entries fun e he => (hentries e he).leaves, ?_⟩
    rw [nesting_object]
    omega

/-- What items are rendered to. -/
theorem rendersTo_renderItems (hp : Admits p) {field : String} :
    (vs : List Raw) → (∀ n ∈ Raw.integersItems vs, p (.integer n)) →
    ∀ {depth : Nat} {resolve : Bool} {ws : List Rendered}, r.renderItems field depth resolve vs = .ok ws →
    ∀ w ∈ ws, RendersTo p r depth w
  | [], _, _, _, _, h => by
    rw [renderItems] at h
    cases h
    exact fun _ hw => absurd hw List.not_mem_nil
  | v :: vs, hn, _, _, _, h => by
    rw [renderItems] at h
    obtain ⟨w, hw, h⟩ := bind_eq_ok h
    obtain ⟨ws, hws, h⟩ := bind_eq_ok h
    cases h
    obtain ⟨hfirst, hrest⟩ := List.forall_mem_append.1 hn
    exact List.forall_mem_cons.2 ⟨rendersTo_renderFrom hp v hfirst hw, rendersTo_renderItems hp vs hrest hws⟩

/-- What entries are rendered to. -/
theorem rendersTo_renderEntries (hp : Admits p) {field : String} : (es : List (String × Raw)) →
    (∀ n ∈ Raw.integersEntries es, p (.integer n)) → ∀ {depth : Nat} {resolve : Bool} {fs : List (String × Rendered)},
    r.renderEntries field depth resolve es = .ok fs → ∀ e ∈ fs, RendersTo p r depth e.2
  | [], _, _, _, _, h => by
    rw [renderEntries] at h
    cases h
    exact fun _ he => absurd he List.not_mem_nil
  | (_, v) :: es, hn, _, _, _, h => by
    rw [renderEntries] at h
    obtain ⟨w, hw, h⟩ := bind_eq_ok h
    obtain ⟨fs, hfs, h⟩ := bind_eq_ok h
    cases h
    obtain ⟨hfirst, hrest⟩ := List.forall_mem_append.1 hn
    exact List.forall_mem_cons.2 ⟨rendersTo_renderFrom hp v hfirst hw, rendersTo_renderEntries hp es hrest hfs⟩

/-- What the attributes that can be rendered are rendered to. -/
theorem rendersTo_renderAttributes (hp : Admits p) {field : String} {templateFields : List String} :
    (es : List (String × Raw)) →
    (∀ n ∈ Raw.integersEntries es, p (.integer n)) → ∀ {depth : Nat} {resolve : Bool},
    ∀ e ∈ r.renderAttributes field depth resolve templateFields es, ∀ w, e.2 = .ok w → RendersTo p r depth w
  | [], _, _, _ => by
    rw [renderAttributes]
    exact fun _ he => absurd he List.not_mem_nil
  | (_, v) :: es, hn, _, _ => by
    rw [renderAttributes]
    obtain ⟨hfirst, hrest⟩ := List.forall_mem_append.1 hn
    exact List.forall_mem_cons.2 ⟨fun w hw => rendersTo_renderFrom hp v hfirst hw,
      rendersTo_renderAttributes hp es hrest⟩

end

/-- What the template fields of an owner are rendered to. -/
theorem rendersTo_renderOwner (hp : Admits p) {owner : Owner}
    (hn : ∀ n ∈ owner.toField.integers, p (.integer n)) {fields : Fields}
    (h : r.renderOwner owner = .ok fields) : ∀ e ∈ fields, RendersTo p r 0 e.2 := by
  obtain ⟨es, hes, h⟩ := bind_eq_ok h
  cases h
  intro e he
  obtain ⟨name, -, hfield⟩ := mem_of_mapM_eq_ok hes (Entries.mem_of_mem_ofList he)
  unfold renderField at hfield
  split at hfield
  · next v hv =>
    obtain ⟨w, hw, hfield⟩ := bind_eq_ok hfield
    cases hfield
    rw [Owner.toField, Raw.integers] at hn
    exact rendersTo_renderFrom hp v
      (fun n hmem => hn n (Raw.mem_integersEntries.2 ⟨_, Entries.mem_of_lookup hv, hmem⟩)) hw
  · cases hfield

/-- The rendered fields of an owner whose integers are signed words are written as what they are. -/
theorem writable_renderOwner {owner : Owner} (hsigned : owner.toField.Signed) {fields : Fields}
    (h : r.renderOwner owner = .ok fields) : fields.Writable := by
  have hintegers : ∀ n ∈ owner.toField.integers, Writable (.integer n) :=
    fun n hn => ⟨nofun, fun _ hm => Rendered.integer.inj hm ▸ hsigned n hn⟩
  exact leafwise_entries (fun e he => (rendersTo_renderOwner admits_writable hintegers h e he).leaves) []

end Renderer

end SnapshotLedger
