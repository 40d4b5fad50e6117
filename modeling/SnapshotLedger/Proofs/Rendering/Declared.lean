import SnapshotLedger.Proofs.Answers
import SnapshotLedger.Proofs.Entries
import SnapshotLedger.Rendering

/-!
# What of a value is resolved

A path leads into a value step by step, and it leads to the same places of the value that is rendered. What
stands there is rendered by its own kind (`Mirrors`); a text goes through the engine only if every object that
the path crosses is left through an attribute which it declares as a template field (`Raw.Declared`). Main
statement: this holds of every path, and what stands at all other places does not depend on the engine
(`render_resolves_declared`).
-/

namespace SnapshotLedger

/-- A step from a value to one in it. -/
inductive Step where
  | item (n : Nat)
  | entry (key : String)
  | field (name : String)
  deriving DecidableEq, Repr

namespace Raw

/-- The value that a step leads to. Of an object this is one of the attributes that it shows or declares as
template fields. -/
def child? : Raw → Step → Option Raw
  | sequence vs, .item n => vs[n]?
  | mapping es, .entry k => es.lookup k
  | object _ templateFields shown attributes, .field name =>
    if name ∈ shown ∨ name ∈ templateFields then attributes.lookup name else none
  | _, _ => none

/-- The value that a path leads to. -/
def at? (v : Raw) (path : List Step) : Option Raw := path.foldlM child? v

/-- Whether a step leaves the value through something that is declared: of an object only the template fields are. -/
def declares : Raw → Step → Bool
  | object _ templateFields _ _, .field name => templateFields.contains name
  | _, _ => true

/-- Every object that the path crosses is left through an attribute that it declares as a template field. -/
def Declared : Raw → List Step → Prop
  | _, [] => True
  | v, s :: path => v.declares s = true ∧ ∀ w, v.child? s = some w → w.Declared path

end Raw

namespace Rendered

/-- The value that a step leads to. -/
def child? : Rendered → Step → Option Rendered
  | sequence vs, .item n => vs[n]?
  | mapping es, .entry k => es.lookup k
  | object _ _ es, .field name => es.lookup name
  | _, _ => none

/-- The value that a path leads to. -/
def at? (v : Rendered) (path : List Step) : Option Rendered := path.foldlM child? v

end Rendered

/-- What stands in the place of a value once it is rendered. Plain data stays, dates and timestamps become
texts, and a text with marks goes through the engine where it is declared. Sequences keep their length and
mappings their keys. An object keeps its kind and its template fields, and has exactly those of the attributes
that it shows or declares which have a value. -/
inductive Mirrors (engine : Engine) (declared : Prop) : Raw → Rendered → Prop where
  | null : Mirrors engine declared .null .null
  | bool (b : Bool) : Mirrors engine declared (.bool b) (.bool b)
  | integer (n : Int) : Mirrors engine declared (.integer n) (.integer n)
  | float (x : Binary64) : Mirrors engine declared (.float x) (.float x)
  | date (d : Date) : Mirrors engine declared (.date d) (.text d.text)
  | timestamp (t : Timestamp) : Mirrors engine declared (.timestamp t) (.text t.display)
  | resolved {s out : String} (h : declared) (marks : Template.hasMarks s = true) (answer : engine s = .ok out) :
    Mirrors engine declared (.text s) (.text out)
  | verbatim {s : String} (h : ¬(declared ∧ Template.hasMarks s = true)) : Mirrors engine declared (.text s) (.text s)
  | sequence {vs : List Raw} {ws : List Rendered} (length : ws.length = vs.length) :
    Mirrors engine declared (.sequence vs) (.sequence ws)
  | mapping {es : List (String × Raw)} {fs : List (String × Rendered)} (keys : fs.map Prod.fst = es.map Prod.fst) :
    Mirrors engine declared (.mapping es) (.mapping fs)
  | object {kind : String} {templateFields shown : List String} {attributes : List (String × Raw)}
    {fs : List (String × Rendered)} (ordered : Entries.Ordered fs)
    (names : ∀ name, name ∈ fs.map Prod.fst ↔
      (name ∈ shown ∨ name ∈ templateFields) ∧ (attributes.lookup name).isSome = true) :
    Mirrors engine declared (.object kind templateFields shown attributes) (.object kind templateFields fs)

/-! ## Lists that correspond one by one -/

section Corresponding

variable {α β : Type} {R S : α → β → Prop}

/-- What corresponds in one way corresponds in every way that follows from it. -/
theorem rel_mono (h : ∀ a b, R a b → S a b) {o : Option α} {p : Option β} (hrel : Option.Rel R o p) :
    Option.Rel S o p := by
  cases hrel with
  | none => exact .none
  | some hab => exact .some (h _ _ hab)

/-- Values found one after the other correspond when the first ones do, and what is found in them. -/
theorem rel_bind {γ δ : Type} {T : γ → δ → Prop} {o : Option α} {p : Option β} {f : α → Option γ} {g : β → Option δ}
    (hrel : Option.Rel R o p) (h : ∀ a b, o = some a → R a b → Option.Rel T (f a) (g b)) :
    Option.Rel T (o >>= f) (p >>= g) := by
  cases hrel with
  | none => exact .none
  | some hab => exact h _ _ rfl hab

/-- At each place of two lists stand items that correspond. -/
theorem rel_getElem? {l : List α} {m : List β} (h : List.Forall₂ R l m) (n : Nat) : Option.Rel R l[n]? m[n]? := by
  induction h generalizing n with
  | nil => exact .none
  | cons hfirst _ ih =>
    cases n with
    | zero => simpa using Option.Rel.some hfirst
    | succ n => simpa using ih n

/-- Under each key of two lists of entries stand values that correspond. -/
theorem rel_lookup {es : List (String × α)} {fs : List (String × β)}
    (h : List.Forall₂ (fun e f => f.1 = e.1 ∧ R e.2 f.2) es fs) (k : String) :
    Option.Rel R (es.lookup k) (fs.lookup k) := by
  induction h with
  | nil => exact .none
  | @cons e f es fs hfirst _ ih =>
    obtain ⟨k', v⟩ := e
    obtain ⟨l, w⟩ := f
    change l = k' ∧ R v w at hfirst
    obtain ⟨rfl, hvalue⟩ := hfirst
    rw [List.lookup_cons, List.lookup_cons]
    split
    · exact .some hvalue
    · exact ih

/-- Entries that correspond have the same keys. -/
theorem keys_eq {R : String × α → String × β → Prop} {es : List (String × α)} {fs : List (String × β)}
    (h : List.Forall₂ (fun e f => f.1 = e.1 ∧ R e f) es fs) : fs.map Prod.fst = es.map Prod.fst := by
  induction h with
  | nil => rfl
  | cons hfirst _ ih => simp [hfirst.1, ih]

/-- Two lists that correspond to a third one are equal when its items have no more than one counterpart. -/
theorem eq_of_forall₂ {l : List α} {m n : List β} (hunique : ∀ a ∈ l, ∀ b c, R a b → S a c → b = c)
    (hm : List.Forall₂ R l m) (hn : List.Forall₂ S l n) : m = n := by
  induction hm generalizing n with
  | nil =>
    cases hn
    rfl
  | cons hfirst _ ih =>
    cases hn with
    | cons hfirst' hrest' =>
      obtain ⟨hhead, htail⟩ := List.forall_mem_cons.1 hunique
      rw [hhead _ _ hfirst hfirst', ih htail hrest']

end Corresponding

namespace Renderer

variable {r : Renderer} {field : String} {depth : Nat} {resolve : Bool}

/-! ## Items and entries -/

/-- Items are rendered one by one. -/
theorem renderItems_eq_mapM (vs : List Raw) :
    r.renderItems field depth resolve vs = vs.mapM (r.renderFrom field depth resolve) := by
  induction vs with
  | nil => rw [renderItems]; rfl
  | cons v vs ih => rw [renderItems, ih, List.mapM_cons]; rfl

/-- Entries are rendered one by one, and keep their keys. -/
theorem renderEntries_eq_mapM (es : List (String × Raw)) : r.renderEntries field depth resolve es =
    es.mapM fun e => (r.renderFrom field depth resolve e.2).map fun w => (e.1, w) := by
  induction es with
  | nil => rw [renderEntries]; rfl
  | cons e es ih =>
    obtain ⟨k, v⟩ := e
    rw [renderEntries, ih, List.mapM_cons]
    cases r.renderFrom field depth resolve v <;> rfl

/-- Items are rendered when each of them is. -/
theorem renderItems_eq_ok_iff {vs : List Raw} {ws : List Rendered} : r.renderItems field depth resolve vs = .ok ws ↔
    List.Forall₂ (fun v w => r.renderFrom field depth resolve v = .ok w) vs ws := by
  rw [renderItems_eq_mapM, mapM_eq_ok_iff]

/-- Entries are rendered when the value of each of them is. -/
theorem renderEntries_eq_ok_iff {es : List (String × Raw)} {fs : List (String × Rendered)} :
    r.renderEntries field depth resolve es = .ok fs ↔
      List.Forall₂ (fun e f => f.1 = e.1 ∧ r.renderFrom field depth resolve e.2 = .ok f.2) es fs := by
  have hentry : ∀ (e : String × Raw) (f : String × Rendered),
      (r.renderFrom field depth resolve e.2).map (fun w => (e.1, w)) = .ok f ↔
        f.1 = e.1 ∧ r.renderFrom field depth resolve e.2 = .ok f.2 := by
    intro e f
    constructor
    · intro h
      obtain ⟨w, hw, rfl⟩ := map_eq_ok h
      exact ⟨rfl, hw⟩
    · rintro ⟨hkey, hvalue⟩
      rw [hvalue, ← hkey]
      rfl
  simp only [renderEntries_eq_mapM, mapM_eq_ok_iff, hentry]

/-! ## Attributes -/

/-- The names shown are the object's own and those of the template fields. -/
theorem mem_shownNames {templateFields shown : List String} {name : String} :
    name ∈ shownNames templateFields shown ↔ name ∈ shown ∨ name ∈ templateFields := by
  unfold shownNames
  induction templateFields generalizing shown with
  | nil => simp
  | cons field templateFields ih =>
    rw [List.foldl_cons, ih, List.mem_cons]
    split
    · next hmem =>
      have hshown : field ∈ shown := List.contains_iff_mem.1 hmem
      constructor
      · exact Or.imp_right .inr
      · rintro (hname | rfl | hname)
        · exact .inl hname
        · exact .inl hshown
        · exact .inr hname
    · rw [List.mem_append, List.mem_singleton, or_assoc]

/-- The result for an attribute is what its value is rendered to. -/
theorem lookup_renderAttributes (templateFields : List String) (attributes : List (String × Raw)) (name : String) :
    (r.renderAttributes field depth resolve templateFields attributes).lookup name =
      (attributes.lookup name).map (r.renderFrom field depth (resolve && templateFields.contains name)) := by
  have hattributes : r.renderAttributes field depth resolve templateFields attributes =
      attributes.map fun e => (e.1, r.renderFrom field depth (resolve && templateFields.contains e.1) e.2) := by
    induction attributes with
    | nil => rw [renderAttributes]; rfl
    | cons e attributes ih =>
      obtain ⟨k, v⟩ := e
      rw [renderAttributes, ih, List.map_cons]
  rw [hattributes]
  exact Entries.lookup_map (fun name =>
    r.renderFrom field depth (resolve && templateFields.contains name)) name attributes

/-- Those attributes are picked that have a result, and each of them is what the result is. -/
theorem pickAttributes_spec {kind : String} {templateFields : List String}
    {results : List (String × Except LedgerError Rendered)} {names : List String}
    {es : List (String × Rendered)} (h : pickAttributes kind templateFields results names = .ok es) :
    es.map Prod.fst = names.filter (fun name => (results.lookup name).isSome) ∧
      ∀ e ∈ es, results.lookup e.1 = some (.ok e.2) := by
  induction names generalizing es with
  | nil =>
    cases h
    simp
  | cons name names ih =>
    rw [pickAttributes] at h
    split at h
    · next result hlookup =>
      obtain ⟨w, hw, h⟩ := bind_eq_ok h
      obtain ⟨rest, hrest, h⟩ := bind_eq_ok h
      cases h
      obtain ⟨hkeys, hvalues⟩ := ih hrest
      refine ⟨by simp [hlookup, hkeys], ?_⟩
      intro e he
      rcases List.mem_cons.1 he with rfl | he
      · rw [hlookup, hw]
      · exact hvalues e he
    · next hlookup =>
      split at h
      · cases h
      · obtain ⟨hkeys, hvalues⟩ := ih h
        exact ⟨by simp [hlookup, hkeys], hvalues⟩

/-- The attributes of an object that has been rendered. -/
structure Picks (r : Renderer) (field : String) (depth : Nat) (resolve : Bool) (templateFields shown : List String)
    (attributes : List (String × Raw)) (es : List (String × Rendered)) : Prop where
  names : es.map Prod.fst = (shownNames templateFields shown).filter fun name => (attributes.lookup name).isSome
  values : ∀ e ∈ es, (attributes.lookup e.1).map
    (r.renderFrom field depth (resolve && templateFields.contains e.1)) = some (.ok e.2)

/-- An object is rendered to one with the attributes that are picked. -/
theorem exists_picks {kind : String} {templateFields shown : List String} {attributes : List (String × Raw)}
    {w : Rendered} (h : r.renderFrom field depth resolve (.object kind templateFields shown attributes) = .ok w) :
    ∃ es, w = .object kind templateFields (Entries.ofList es) ∧
      Picks r field (depth + 2) resolve templateFields shown attributes es := by
  rw [renderFrom] at h
  obtain ⟨u, -, h⟩ := bind_eq_ok h
  obtain ⟨es, hes, h⟩ := bind_eq_ok h
  cases h
  obtain ⟨hnames, hvalues⟩ := pickAttributes_spec hes
  refine ⟨es, rfl, ?_, ?_⟩
  · simpa only [lookup_renderAttributes, Option.isSome_map] using hnames
  · simpa only [lookup_renderAttributes] using hvalues

variable {templateFields shown : List String} {attributes : List (String × Raw)} {es : List (String × Rendered)}

/-- The attributes picked are those shown or declared that have a value. -/
theorem Picks.mem_keys (h : Picks r field depth resolve templateFields shown attributes es) {name : String} :
    name ∈ es.map Prod.fst ↔ (name ∈ shown ∨ name ∈ templateFields) ∧ (attributes.lookup name).isSome = true := by
  rw [h.names, List.mem_filter, mem_shownNames]

/-- Under the name of an attribute stands what its value is rendered to, and under other names nothing. -/
theorem Picks.rel_lookup (h : Picks r field depth resolve templateFields shown attributes es) (name : String) :
    Option.Rel (fun v w => r.renderFrom field depth (resolve && templateFields.contains name) v = .ok w)
      (if name ∈ shown ∨ name ∈ templateFields then attributes.lookup name else none)
        ((Entries.ofList es).lookup name) := by
  cases hlookup : (Entries.ofList es).lookup name with
  | none =>
    have hnot : ¬((name ∈ shown ∨ name ∈ templateFields) ∧ (attributes.lookup name).isSome = true) := by
      rw [← h.mem_keys, ← Entries.mem_keys_ofList, ← Entries.lookup_isSome_iff, hlookup]
      simp
    split
    · next hname =>
      have hnone : attributes.lookup name = none := Option.not_isSome_iff_eq_none.1 fun hsome => hnot ⟨hname, hsome⟩
      rw [hnone]
      exact .none
    · exact .none
  | some w =>
    have hmem : (name, w) ∈ es := Entries.mem_of_mem_ofList (Entries.mem_of_lookup hlookup)
    have hname := (h.mem_keys.1 (List.mem_map_of_mem hmem)).1
    obtain ⟨v, hv, hw⟩ := Option.map_eq_some_iff.1 (h.values _ hmem)
    rw [if_pos hname, hv]
    exact .some hw

/-! ## One value and one step -/

/-- A text goes through the engine where it is resolved and has marks, and is kept otherwise. -/
theorem mirrors_renderText {s : String} {w : Rendered} (h : r.renderText field resolve s = .ok w) :
    Mirrors r.engine (resolve = true) (.text s) w := by
  unfold renderText at h
  split at h
  · next hmarks =>
    rw [Bool.and_eq_true] at hmarks
    split at h
    · next out hout =>
      cases h
      exact .resolved hmarks.1 hmarks.2 hout
    · cases h
  · next hmarks =>
    cases h
    rw [Bool.and_eq_true] at hmarks
    exact .verbatim hmarks

/-- What a value is rendered to stands in its place. -/
theorem mirrors_renderFrom {v : Raw} {w : Rendered} (h : r.renderFrom field depth resolve v = .ok w) :
    Mirrors r.engine (resolve = true) v w := by
  cases v with
  | null | bool | integer | date | timestamp =>
    rw [renderFrom] at h
    obtain ⟨u, -, rfl⟩ := map_eq_ok h
    constructor
  | float x =>
    rw [renderFrom] at h
    obtain ⟨u, -, h⟩ := bind_eq_ok h
    split at h <;> cases h
    exact .float x
  | text s =>
    rw [renderFrom] at h
    obtain ⟨u, -, h⟩ := bind_eq_ok h
    exact mirrors_renderText h
  | sequence vs =>
    rw [renderFrom] at h
    obtain ⟨u, -, h⟩ := bind_eq_ok h
    obtain ⟨ws, hws, h⟩ := bind_eq_ok h
    cases h
    exact .sequence (renderItems_eq_ok_iff.1 hws).length_eq.symm
  | mapping es =>
    rw [renderFrom] at h
    obtain ⟨u, -, h⟩ := bind_eq_ok h
    obtain ⟨fs, hfs, h⟩ := bind_eq_ok h
    cases h
    exact .mapping (keys_eq (renderEntries_eq_ok_iff.1 hfs))
  | object kind templateFields shown attributes =>
    obtain ⟨es, rfl, hpicks⟩ := exists_picks h
    exact .object (Entries.ordered_ofList es) fun name => by rw [Entries.mem_keys_ofList, hpicks.mem_keys]

/-- A step leads to what the value that it leads to is rendered to, and that is resolved only if the step
declares it. -/
theorem rel_child? {v : Raw} {w : Rendered} (h : r.renderFrom field depth resolve v = .ok w) (s : Step) :
    Option.Rel (fun x y => ∃ depth', r.renderFrom field depth' (resolve && v.declares s) x = .ok y) (v.child? s)
      (w.child? s) := by
  cases v with
  | sequence vs =>
    rw [renderFrom] at h
    obtain ⟨u, -, h⟩ := bind_eq_ok h
    obtain ⟨ws, hws, h⟩ := bind_eq_ok h
    cases h
    cases s with
    | item n =>
      have hrel := rel_getElem? (renderItems_eq_ok_iff.1 hws) n
      simp only [Raw.child?, Rendered.child?, Raw.declares, Bool.and_true]
      exact rel_mono (fun x y hxy => ⟨depth + 1, hxy⟩) hrel
    | entry _ | field _ => exact .none
  | mapping es =>
    rw [renderFrom] at h
    obtain ⟨u, -, h⟩ := bind_eq_ok h
    obtain ⟨fs, hfs, h⟩ := bind_eq_ok h
    cases h
    cases s with
    | entry k =>
      have hrel :
          Option.Rel (fun x y => r.renderFrom field (depth + 1) resolve x = .ok y) (es.lookup k) (fs.lookup k) :=
        rel_lookup (renderEntries_eq_ok_iff.1 hfs) k
      simp only [Raw.child?, Rendered.child?, Raw.declares, Bool.and_true]
      exact rel_mono (fun x y hxy => ⟨depth + 1, hxy⟩) hrel
    | item _ | field _ => exact .none
  | object kind templateFields shown attributes =>
    obtain ⟨es, rfl, hpicks⟩ := exists_picks h
    cases s with
    | field name => exact rel_mono (fun x y hxy => ⟨depth + 2, hxy⟩) (hpicks.rel_lookup name)
    | item _ | entry _ => exact .none
  | null | bool | integer | float | text | date | timestamp =>
    have hmirrors := mirrors_renderFrom h
    cases hmirrors <;> exact .none

/-! ## Paths -/

/-- Along every path a rendered value has what the value that was rendered has, and what stands there is
resolved only if every step that leads there declares it. -/
theorem rel_at? (path : List Step) {v : Raw} {w : Rendered} (h : r.renderFrom field depth resolve v = .ok w) :
    Option.Rel (Mirrors r.engine (resolve = true ∧ v.Declared path)) (v.at? path) (w.at? path) := by
  induction path generalizing v w depth resolve with
  | nil =>
    simp only [Raw.Declared, and_true]
    exact .some (mirrors_renderFrom h)
  | cons s path ih =>
    rw [Raw.at?, Rendered.at?, List.foldlM_cons, List.foldlM_cons]
    refine rel_bind (rel_child? h s) fun x y hx hxy => ?_
    obtain ⟨depth', hxy⟩ := hxy
    have hdeclared : (resolve = true ∧ v.Declared (s :: path)) ↔
        ((resolve && v.declares s) = true ∧ x.Declared path) := by
      simp [Raw.Declared, hx, and_assoc]
    rw [hdeclared]
    exact ih hxy

/-! ## What is not resolved -/

/-- What the value is rendered to without being resolved is the same for every engine, limit, field and depth. -/
def KeptAlike (v : Raw) : Prop := ∀ (r r' : Renderer) (field field' : String) (depth depth' : Nat) (w w' : Rendered),
  r.renderFrom field depth false v = .ok w → r'.renderFrom field' depth' false v = .ok w' → w = w'

/-- A value that is no container is kept alike, for what stands in its place is given by the value. -/
theorem keptAlike_leaf {v : Raw} (hsequence : ∀ vs, v ≠ .sequence vs) (hmapping : ∀ es, v ≠ .mapping es)
    (hobject : ∀ kind templateFields shown attributes, v ≠ .object kind templateFields shown attributes) :
    KeptAlike v := by
  intro r r' field field' depth depth' w w' h h'
  have hm := mirrors_renderFrom h
  have hm' := mirrors_renderFrom h'
  cases hm with
  | null | bool | integer | float | date | timestamp | verbatim => cases hm' <;> first | rfl | contradiction
  | resolved hresolve => cases hresolve
  | sequence => exact absurd rfl (hsequence _)
  | mapping => exact absurd rfl (hmapping _)
  | object => exact absurd rfl (hobject _ _ _ _)

/-- Attributes that are kept alike are picked alike. -/
theorem picks_unique {r r' : Renderer} {field field' : String} {depth depth' : Nat} {templateFields shown : List String}
    {attributes : List (String × Raw)} {es es' : List (String × Rendered)} (halike : ∀ e ∈ attributes, KeptAlike e.2)
    (h : Picks r field depth false templateFields shown attributes es)
    (h' : Picks r' field' depth' false templateFields shown attributes es') : es = es' := by
  have hkeys : es.map Prod.fst = es'.map Prod.fst := h.names.trans h'.names.symm
  have hvalues : ∀ e ∈ es, ∀ e' ∈ es', e.1 = e'.1 → e = e' := by
    rintro ⟨name, w⟩ he ⟨name', w'⟩ he' heq
    obtain rfl : name = name' := heq
    obtain ⟨v, hv, hw⟩ := Option.map_eq_some_iff.1 (h.values _ he)
    obtain ⟨v', hv', hw'⟩ := Option.map_eq_some_iff.1 (h'.values _ he')
    obtain rfl : v = v' := Option.some.inj (hv.symm.trans hv')
    rw [halike _ (Entries.mem_of_lookup hv) r r' field field' depth depth' w w' hw hw']
  clear h h'
  induction es generalizing es' with
  | nil =>
    rw [List.map_nil, eq_comm, List.map_eq_nil_iff] at hkeys
    exact hkeys.symm
  | cons e es ih =>
    cases es' with
    | nil => cases hkeys
    | cons e' es' =>
      obtain ⟨hfirst, hrest⟩ := List.cons.inj hkeys
      rw [hvalues e List.mem_cons_self e' List.mem_cons_self hfirst, ih hrest fun x hx y hy =>
        hvalues x (List.mem_cons_of_mem _ hx) y (List.mem_cons_of_mem _ hy)]

mutual

/-- Every value is kept alike: the items and entries in it are, and so are the attributes of objects. -/
theorem keptAlike : (v : Raw) → KeptAlike v
  | .null | .bool _ | .integer _ | .float _ | .text _ | .date _ | .timestamp _ => keptAlike_leaf nofun nofun nofun
  | .sequence vs => by
    intro r r' field field' depth depth' w w' h h'
    rw [renderFrom] at h h'
    obtain ⟨u, -, h⟩ := bind_eq_ok h
    obtain ⟨u', -, h'⟩ := bind_eq_ok h'
    obtain ⟨ws, hws, h⟩ := bind_eq_ok h
    obtain ⟨ws', hws', h'⟩ := bind_eq_ok h'
    cases h
    cases h'
    rw [eq_of_forall₂ (fun v hv w w' => keptAlike_items vs v hv r r' field field' _ _ w w')
      (renderItems_eq_ok_iff.1 hws)
      (renderItems_eq_ok_iff.1 hws')]
  | .mapping es => by
    intro r r' field field' depth depth' w w' h h'
    rw [renderFrom] at h h'
    obtain ⟨u, -, h⟩ := bind_eq_ok h
    obtain ⟨u', -, h'⟩ := bind_eq_ok h'
    obtain ⟨fs, hfs, h⟩ := bind_eq_ok h
    obtain ⟨fs', hfs', h'⟩ := bind_eq_ok h'
    cases h
    cases h'
    rw [eq_of_forall₂ (fun e he f f' hf hf' => Prod.ext (hf.1.trans hf'.1.symm)
      (keptAlike_entries es e he r r' field field' _ _ _ _ hf.2 hf'.2)) (renderEntries_eq_ok_iff.1 hfs)
      (renderEntries_eq_ok_iff.1 hfs')]
  | .object _ _ _ attributes => by
    intro r r' field field' depth depth' w w' h h'
    obtain ⟨es, rfl, hpicks⟩ := exists_picks h
    obtain ⟨es', rfl, hpicks'⟩ := exists_picks h'
    rw [picks_unique (keptAlike_entries attributes) hpicks hpicks']

/-- All items are kept alike. -/
theorem keptAlike_items : (vs : List Raw) → ∀ v ∈ vs, KeptAlike v
  | [] => fun _ h => absurd h List.not_mem_nil
  | v :: vs => List.forall_mem_cons.2 ⟨keptAlike v, keptAlike_items vs⟩

/-- The values of all entries are kept alike. -/
theorem keptAlike_entries : (es : List (String × Raw)) → ∀ e ∈ es, KeptAlike e.2
  | [] => fun _ h => absurd h List.not_mem_nil
  | (_, v) :: es => List.forall_mem_cons.2 ⟨keptAlike v, keptAlike_entries es⟩

end

/-- What stands at a place that is not declared is the same for every engine and limit. -/
theorem at?_eq_of_not_declared (path : List Step) {r r' : Renderer} {field field' : String} {depth depth' : Nat}
    {resolve : Bool} {v : Raw} {w w' : Rendered} (h : r.renderFrom field depth resolve v = .ok w)
    (h' : r'.renderFrom field' depth' resolve v = .ok w') (hnot : ¬(resolve = true ∧ v.Declared path)) :
    w.at? path = w'.at? path := by
  induction path generalizing v w w' depth depth' resolve with
  | nil =>
    have hresolve : resolve = false := by simpa [Raw.Declared] using hnot
    subst hresolve
    rw [keptAlike v r r' field field' depth depth' w w' h h']
  | cons s path ih =>
    have hchild := rel_child? h s
    have hchild' := rel_child? h' s
    rw [Rendered.at?, Rendered.at?, List.foldlM_cons, List.foldlM_cons]
    cases hx : v.child? s with
    | none =>
      rw [hx] at hchild hchild'
      generalize w.child? s = y at hchild
      generalize w'.child? s = y' at hchild'
      cases hchild
      cases hchild'
      rfl
    | some x =>
      have hdeclared : ¬((resolve && v.declares s) = true ∧ x.Declared path) := by
        simpa [Raw.Declared, hx, and_assoc] using hnot
      rw [hx] at hchild hchild'
      generalize w.child? s = y at hchild
      generalize w'.child? s = y' at hchild'
      cases hchild with
      | some hxy =>
        cases hchild' with
        | some hxy' =>
          obtain ⟨_, hxy⟩ := hxy
          obtain ⟨_, hxy'⟩ := hxy'
          exact ih hxy hxy' hdeclared

/-- Only what is declared is resolved, and everything else is kept. Along every path a rendered value has what
the value that was rendered has, and of the same kind; a text is what the engine makes of it exactly where it
has marks and every object on the path is left through a template field. So what stands below any other
attribute is the same for every engine and limit that the value can be rendered with. -/
theorem render_resolves_declared {r : Renderer} {field : String} {v : Raw} {w : Rendered}
    (h : r.render field v = .ok w) :
    (∀ path, Option.Rel (Mirrors r.engine (v.Declared path)) (v.at? path) (w.at? path)) ∧
      ∀ (r' : Renderer) (field' : String) (w' : Rendered), r'.render field' v = .ok w' →
        ∀ path, ¬v.Declared path → w.at? path = w'.at? path := by
  refine ⟨fun path => ?_, fun r' field' w' h' path hnot => ?_⟩
  · have hrel := rel_at? path h
    rwa [eq_self_iff_true, true_and] at hrel
  · exact at?_eq_of_not_declared path h h' fun hdeclared => hnot hdeclared.2

/-- An object with one declared and one other attribute, both of which hold a text that refers to a value. -/
def referring : Raw :=
  .object "B" ["c"] ["c", "d"] [("c", .text "\x7b\x7bx\x7d\x7d"), ("d", .text "\x7b\x7bx\x7d\x7d")]

/-- Two levels of such objects. -/
def nested : Raw := .object "A" ["a"] ["a", "b"] [("a", referring), ("b", referring)]

/-- A renderer with one value to refer to. -/
def valued (value : String) : Renderer := ⟨Template.render (fun _ => none) ⟨[("x", .string value)]⟩, 8⟩

/-- Of the texts in two levels of objects one is resolved, and those below the other attributes are the same for
either value. -/
theorem render_resolves_declared_of_nested : ∃ w w', (valued "1").render "f" nested = .ok w ∧
    (valued "2").render "f" nested = .ok w' ∧
    (∀ path, Option.Rel (Mirrors (valued "1").engine (nested.Declared path)) (nested.at? path) (w.at? path)) ∧
    nested.Declared [.field "a", .field "c"] ∧ w.at? [.field "a", .field "c"] = some (.text "1") ∧
    w'.at? [.field "a", .field "c"] = some (.text "2") ∧
    ¬nested.Declared [.field "b", .field "c"] ∧ w.at? [.field "b", .field "c"] = w'.at? [.field "b", .field "c"] ∧
    ¬nested.Declared [.field "a", .field "d"] ∧ w.at? [.field "a", .field "d"] = w'.at? [.field "a", .field "d"] := by
  have hdeclared : nested.Declared [.field "a", .field "c"] := by
    simp [Raw.Declared, nested, referring, Raw.declares, Raw.child?]
  have houter : ¬nested.Declared [.field "b", .field "c"] := by simp [Raw.Declared, nested, Raw.declares]
  have hinner : ¬nested.Declared [.field "a", .field "d"] := by
    simp [Raw.Declared, nested, referring, Raw.declares, Raw.child?]
  obtain ⟨w, h, hw⟩ : ∃ w, (valued "1").render "f" nested = .ok w ∧ w.at? [.field "a", .field "c"] = some (.text "1") :=
    ⟨_, rfl, rfl⟩
  obtain ⟨w', h', hw'⟩ : ∃ w', (valued "2").render "f" nested = .ok w' ∧
      w'.at? [.field "a", .field "c"] = some (.text "2") :=
    ⟨_, rfl, rfl⟩
  obtain ⟨hpaths, hothers⟩ := render_resolves_declared h
  exact ⟨w, w', h, h', hpaths, hdeclared, hw, hw', houter, hothers _ _ _ h' _ houter, hinner, hothers _ _ _ h' _ hinner⟩

end Renderer

end SnapshotLedger
