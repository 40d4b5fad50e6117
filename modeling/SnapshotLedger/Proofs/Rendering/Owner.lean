import SnapshotLedger.Proofs.Rendering.Declared

/-!
# The template fields of an owner

The engine is asked for the texts of a value one after the other (`Raw.asked`). A value is rendered only if the
engine answers all of them, and every template error, from whatever depth, is that of the first text which the
engine refuses, under the name of the top-level field (`blames_renderFrom`). So an owner is rendered as a whole
or not at all, the order in which it declares its fields and how often does not matter to what they are rendered
to, and otherwise the first of them that cannot be rendered is blamed (`renderOwner_all_or_nothing`).
-/

namespace SnapshotLedger

namespace Raw

mutual

/-- The texts of the value that go through the engine, in the order in which they are rendered: those with
marks, where texts are resolved. Below an attribute of an object they are so only if it is a template field. -/
def asked (resolve : Bool) : Raw → List String
  | text s => if resolve && Template.hasMarks s then [s] else []
  | sequence vs => askedItems resolve vs
  | mapping es => (askedEntries (fun _ => resolve) es).flatMap Prod.snd
  | object _ templateFields shown attributes =>
    let texts := askedEntries (fun name => resolve && templateFields.contains name) attributes
    (Renderer.shownNames templateFields shown).flatMap fun name => (texts.lookup name).getD []
  | null | bool _ | integer _ | float _ | date _ | timestamp _ => []

/-- The texts of items. -/
def askedItems (resolve : Bool) : List Raw → List String
  | [] => []
  | v :: vs => asked resolve v ++ askedItems resolve vs

/-- The texts of values under their keys, which may differ in whether they are resolved. -/
def askedEntries (resolve : String → Bool) : List (String × Raw) → List (String × List String)
  | [] => []
  | (k, v) :: es => (k, asked (resolve k) v) :: askedEntries resolve es

end

/-- The texts of items, one after the other. -/
theorem askedItems_eq (resolve : Bool) (vs : List Raw) : askedItems resolve vs = vs.flatMap (asked resolve) := by
  induction vs with
  | nil => rw [askedItems]; rfl
  | cons v vs ih => rw [askedItems, ih, List.flatMap_cons]

/-- The texts of values under their keys, one by one. -/
theorem askedEntries_eq (resolve : String → Bool) (es : List (String × Raw)) :
    askedEntries resolve es = es.map fun e => (e.1, asked (resolve e.1) e.2) := by
  induction es with
  | nil => rw [askedEntries]; rfl
  | cons e es ih =>
    obtain ⟨k, v⟩ := e
    rw [askedEntries, ih, List.map_cons]

/-- The texts under a key are those of the value under it. -/
theorem lookup_askedEntries (resolve : String → Bool) (es : List (String × Raw)) (k : String) :
    (askedEntries resolve es).lookup k = (es.lookup k).map (asked (resolve k)) := by
  rw [askedEntries_eq]
  exact Entries.lookup_map (fun k => asked (resolve k)) k es

end Raw

namespace Renderer

/-! ## Answers that blame a field -/

/-- The answer is a value only if the engine answers all the texts, and a template error only if the engine
gives it for the first one that it refuses, and under the name of the field. -/
structure Blames {α : Type} (engine : Engine) (field : String) (texts : List String)
    (answer : Except LedgerError α) : Prop where
  answered : ∀ {a}, answer = .ok a → ∃ outs, texts.mapM engine = .ok outs
  refused : ∀ {name source}, answer = .error (.template name source) → name = field ∧ texts.mapM engine = .error source

section Answers

variable {α β : Type} {engine : Engine} {field : String} {texts more : List String} {x : Except LedgerError α}

/-- A value needs no texts. -/
theorem blames_ok (a : α) : Blames engine field [] (.ok a : Except LedgerError α) := ⟨fun _ => ⟨[], rfl⟩, nofun⟩

/-- An error about anything else says nothing of the texts. -/
theorem blames_error {e : LedgerError} (h : ∀ name source, e ≠ .template name source) :
    Blames engine field texts (.error e : Except LedgerError α) := by
  refine ⟨nofun, fun he => ?_⟩
  rw [Except.error.injEq] at he
  exact absurd he (h _ _)

/-- Of two steps the texts of the first one come first. -/
theorem Blames.bind {f : α → Except LedgerError β} (hx : Blames engine field texts x)
    (hf : ∀ a, Blames engine field more (f a)) : Blames engine field (texts ++ more) (x >>= f) := by
  cases x with
  | error e =>
    refine ⟨nofun, fun he => ?_⟩
    cases he
    obtain ⟨hname, hrefused⟩ := hx.refused rfl
    rw [List.mapM_append, hrefused]
    exact ⟨hname, rfl⟩
  | ok a =>
    obtain ⟨outs, houts⟩ := hx.answered rfl
    have hall : (texts ++ more).mapM engine = (more.mapM engine).map (outs ++ ·) := by
      rw [List.mapM_append, houts]
      cases more.mapM engine <;> rfl
    refine ⟨fun hok => ?_, fun he => ?_⟩
    · obtain ⟨outs', houts'⟩ := (hf a).answered hok
      rw [hall, houts']
      exact ⟨outs ++ outs', rfl⟩
    · obtain ⟨hname, hrefused⟩ := (hf a).refused he
      rw [hall, hrefused]
      exact ⟨hname, rfl⟩

/-- A value may be changed. -/
theorem Blames.map (hx : Blames engine field texts x) (f : α → β) : Blames engine field texts (x.map f) := by
  cases x with
  | error e =>
    refine ⟨nofun, fun he => ?_⟩
    cases he
    exact hx.refused rfl
  | ok a => exact ⟨fun _ => hx.answered rfl, nofun⟩

/-- For a list the texts of its items come one after the other. -/
theorem blames_mapM {f : α → Except LedgerError β} {textsOf : α → List String} {l : List α}
    (h : ∀ a ∈ l, Blames engine field (textsOf a) (f a)) : Blames engine field (l.flatMap textsOf) (l.mapM f) := by
  induction l with
  | nil => exact blames_ok []
  | cons a l ih =>
    obtain ⟨hfirst, hrest⟩ := List.forall_mem_cons.1 h
    rw [List.mapM_cons, List.flatMap_cons]
    have hall := hfirst.bind fun b => (ih hrest).bind fun bs => blames_ok (b :: bs)
    rwa [List.append_nil] at hall

end Answers

variable {r : Renderer} {field : String}

/-- The check of the depth has nothing to do with texts. -/
theorem blames_checkDepth (depth : Nat) : Blames r.engine field [] (r.checkDepth depth) := by
  unfold checkDepth
  split
  · exact blames_error (by simp)
  · exact blames_ok ()

/-- A text is what the engine is asked for where it is resolved and has marks. -/
theorem blames_renderText (resolve : Bool) (s : String) :
    Blames r.engine field ((Raw.text s).asked resolve) (r.renderText field resolve s) := by
  rw [Raw.asked, renderText]
  split
  · cases hs : r.engine s with
    | ok out =>
      refine ⟨fun _ => ⟨[out], ?_⟩, nofun⟩
      rw [List.mapM_cons, hs]
      rfl
    | error source =>
      refine ⟨nofun, fun he => ?_⟩
      cases he
      rw [List.mapM_cons, hs]
      exact ⟨rfl, rfl⟩
  · exact blames_ok _

/-- For the attributes that are picked the texts of those that have a result come one after the other. -/
theorem blames_pickAttributes {engine : Engine} (kind : String) (templateFields : List String)
    {results : List (String × Except LedgerError Rendered)} {textsOf : String → List String}
    (hsome : ∀ name result, results.lookup name = some result → Blames engine field (textsOf name) result)
    (hnone : ∀ name, results.lookup name = none → textsOf name = []) (names : List String) :
    Blames engine field (names.flatMap textsOf) (pickAttributes kind templateFields results names) := by
  induction names with
  | nil => exact blames_ok []
  | cons name names ih =>
    rw [pickAttributes, List.flatMap_cons]
    split
    · next result hlookup =>
      have hall := (hsome name result hlookup).bind fun v => ih.bind fun es => blames_ok ((name, v) :: es)
      rwa [List.append_nil] at hall
    · next hlookup =>
      rw [hnone name hlookup, List.nil_append]
      split
      · exact blames_error (by simp)
      · exact ih

/-! ## Values -/

mutual

/-- Rendering a value asks the engine for its texts in order. -/
theorem blames_renderFrom : (v : Raw) → ∀ (depth : Nat) (resolve : Bool),
    Blames r.engine field (v.asked resolve) (r.renderFrom field depth resolve v)
  | .null, depth, _ | .bool _, depth, _ | .integer _, depth, _ | .date _, depth, _ | .timestamp _, depth, _ => by
    rw [renderFrom, Raw.asked]
    exact (blames_checkDepth depth).map _
  | .float x, depth, _ => by
    have hanswer : Blames r.engine field []
        (if x.isFinite then .ok (Rendered.float x) else .error (.invalidField (.notFinite field x))) := by
      split
      · exact blames_ok _
      · exact blames_error (by simp)
    rw [renderFrom, Raw.asked]
    exact (blames_checkDepth depth).bind fun _ => hanswer
  | .text s, depth, resolve => by
    rw [renderFrom]
    exact (blames_checkDepth depth).bind fun _ => blames_renderText resolve s
  | .sequence vs, depth, resolve => by
    rw [renderFrom, renderItems_eq_mapM, Raw.asked, Raw.askedItems_eq]
    have hitems := blames_mapM fun v hv => blames_of_mem_items vs v hv (depth + 1) resolve
    have hall := (blames_checkDepth depth).bind fun _ => hitems.bind fun ws => blames_ok (Rendered.sequence ws)
    rwa [List.append_nil] at hall
  | .mapping es, depth, resolve => by
    rw [renderFrom, renderEntries_eq_mapM, Raw.asked, Raw.askedEntries_eq, List.flatMap_map]
    have hentries := blames_mapM fun e he => (blames_of_mem_entries es e he (depth + 1) resolve).map fun w => (e.1, w)
    have hall := (blames_checkDepth depth).bind fun _ => hentries.bind fun fs => blames_ok (Rendered.mapping fs)
    rwa [List.append_nil] at hall
  | .object kind templateFields shown attributes, depth, resolve => by
    rw [renderFrom, Raw.asked]
    have hsome : ∀ name result,
        (r.renderAttributes field (depth + 2) resolve templateFields attributes).lookup name = some result →
        Blames r.engine field
          (((Raw.askedEntries (fun name => resolve &&
            templateFields.contains name) attributes).lookup name).getD []) result := by
      intro name result hresult
      rw [lookup_renderAttributes, Option.map_eq_some_iff] at hresult
      obtain ⟨v, hv, rfl⟩ := hresult
      rw [Raw.lookup_askedEntries, hv]
      exact blames_of_mem_entries attributes _ (Entries.mem_of_lookup hv) (depth + 2) _
    have hnone : ∀ name, (r.renderAttributes field (depth + 2) resolve templateFields attributes).lookup name = none →
        ((Raw.askedEntries (fun name => resolve &&
          templateFields.contains name) attributes).lookup name).getD [] = [] := by
      intro name hresult
      rw [lookup_renderAttributes, Option.map_eq_none_iff] at hresult
      rw [Raw.lookup_askedEntries, hresult]
      rfl
    have hpicked := blames_pickAttributes kind templateFields hsome hnone (shownNames templateFields shown)
    have hall := (blames_checkDepth (depth + 1)).bind fun _ => hpicked.bind fun es =>
      blames_ok (Rendered.object kind templateFields (Entries.ofList es))
    rwa [List.append_nil] at hall

/-- Rendering each item asks the engine for its texts. -/
theorem blames_of_mem_items : (vs : List Raw) → ∀ v ∈ vs, ∀ (depth : Nat) (resolve : Bool),
    Blames r.engine field (v.asked resolve) (r.renderFrom field depth resolve v)
  | [] => fun _ h => absurd h List.not_mem_nil
  | v :: vs => List.forall_mem_cons.2 ⟨blames_renderFrom v, blames_of_mem_items vs⟩

/-- Rendering the value of each entry asks the engine for its texts. -/
theorem blames_of_mem_entries : (es : List (String × Raw)) → ∀ e ∈ es, ∀ (depth : Nat) (resolve : Bool),
    Blames r.engine field (e.2.asked resolve) (r.renderFrom field depth resolve e.2)
  | [] => fun _ h => absurd h List.not_mem_nil
  | (_, v) :: es => List.forall_mem_cons.2 ⟨blames_renderFrom v, blames_of_mem_entries es⟩

end

/-! ## Template fields -/

/-- A template field of an owner is rendered to a value: it has a value that is rendered to it. -/
def RendersField (r : Renderer) (owner : Owner) (name : String) (w : Rendered) : Prop :=
  ∃ v, owner.field? name = some v ∧ r.render name v = .ok w

/-- Why a template field of an owner cannot be rendered: it has no value, or its value cannot be. -/
inductive RefusesField (r : Renderer) (owner : Owner) (name : String) : LedgerError → Prop where
  | missing (h : owner.field? name = none) : RefusesField r owner name (.missingField owner.kind name)
  | rendering {v : Raw} {e : LedgerError} (value : owner.field? name = some v) (h : r.render name v = .error e) :
    RefusesField r owner name e

variable {owner : Owner}

/-- A template field gives an entry with what it is rendered to. -/
theorem renderField_eq_ok_iff {name : String} {entry : String × Rendered} :
    r.renderField owner name = .ok entry ↔ entry.1 = name ∧ r.RendersField owner name entry.2 := by
  unfold renderField RendersField
  split
  · next v hv =>
    constructor
    · intro h
      obtain ⟨w, hw, h⟩ := bind_eq_ok h
      cases h
      exact ⟨rfl, v, hv, hw⟩
    · rintro ⟨rfl, u, hu, hw⟩
      obtain rfl : v = u := Option.some.inj (hv.symm.trans hu)
      rw [hw]
      rfl
  · next hnone =>
    refine ⟨nofun, ?_⟩
    rintro ⟨-, v, hv, -⟩
    rw [hnone] at hv
    cases hv

/-- A template field gives an error when it cannot be rendered. -/
theorem renderField_eq_error_iff {name : String} {e : LedgerError} :
    r.renderField owner name = .error e ↔ r.RefusesField owner name e := by
  unfold renderField
  split
  · next v hv =>
    constructor
    · intro h
      cases hrender : r.render name v with
      | error e' =>
        rw [hrender] at h
        cases h
        exact .rendering hv hrender
      | ok w =>
        rw [hrender] at h
        cases h
    · intro h
      cases h with
      | missing hnone =>
        rw [hv] at hnone
        cases hnone
      | rendering hu hrender =>
        obtain rfl := Option.some.inj (hv.symm.trans hu)
        rw [hrender]
        rfl
  · next hnone =>
    constructor
    · intro h
      cases h
      exact .missing hnone
    · intro h
      cases h with
      | missing => rfl
      | rendering hu =>
        rw [hnone] at hu
        cases hu

/-- The fields of an owner are its template fields, put in order. -/
theorem renderOwner_eq (r : Renderer) (owner : Owner) :
    r.renderOwner owner = (owner.templateFields.mapM (r.renderField owner)).map Entries.ofList := by
  unfold renderOwner
  cases owner.templateFields.mapM (r.renderField owner) <;> rfl

/-- An owner is rendered when each of its template fields is. -/
theorem exists_renderOwner_iff : (∃ fields, r.renderOwner owner = .ok fields) ↔
    ∀ name ∈ owner.templateFields, ∃ w, r.RendersField owner name w := by
  rw [renderOwner_eq]
  constructor
  · rintro ⟨fields, h⟩ name hname
    obtain ⟨es, hes, -⟩ := map_eq_ok h
    obtain ⟨entry, -, hentry⟩ := mem_mapM_of_eq_ok hes hname
    exact ⟨entry.2, (renderField_eq_ok_iff.1 hentry).2⟩
  · intro hall
    have hentries : ∀ name ∈ owner.templateFields, ∃ entry, r.renderField owner name = .ok entry := by
      intro name hname
      obtain ⟨w, hw⟩ := hall name hname
      exact ⟨(name, w), renderField_eq_ok_iff.2 ⟨rfl, hw⟩⟩
    obtain ⟨es, hes⟩ := exists_mapM_eq_ok hentries
    rw [hes]
    exact ⟨Entries.ofList es, rfl⟩

/-- The error about an owner is that about the first template field that cannot be rendered. -/
theorem renderOwner_eq_error_iff {e : LedgerError} : r.renderOwner owner = .error e ↔
    ∃ front name back, owner.templateFields = front ++ name :: back ∧
      (∀ before ∈ front, ∃ w, r.RendersField owner before w) ∧ r.RefusesField owner name e := by
  have hentry : ∀ name, (∃ entry, r.renderField owner name = .ok entry) ↔ ∃ w, r.RendersField owner name w := by
    intro name
    simp only [renderField_eq_ok_iff, Prod.exists, exists_and_left, exists_eq_left]
  rw [renderOwner_eq, map_eq_error_iff, mapM_eq_error_iff]
  simp only [hentry, renderField_eq_error_iff]

/-- Under the names of its template fields stands what they are rendered to, and under other names nothing. -/
theorem lookup_renderOwner {fields : Fields} (h : r.renderOwner owner = .ok fields) {name : String} {w : Rendered} :
    fields.lookup name = some w ↔ name ∈ owner.templateFields ∧ r.RendersField owner name w := by
  rw [renderOwner_eq] at h
  obtain ⟨es, hes, rfl⟩ := map_eq_ok h
  rw [Entries.lookup_eq_some_iff (Entries.ordered_ofList es)]
  constructor
  · intro hmem
    obtain ⟨name', hname, hentry⟩ := mem_of_mapM_eq_ok hes (Entries.mem_of_mem_ofList hmem)
    obtain ⟨rfl, hrenders⟩ := renderField_eq_ok_iff.1 hentry
    exact ⟨hname, hrenders⟩
  · rintro ⟨hname, hrenders⟩
    have hvalue : ∀ entry, r.renderField owner name = .ok entry → entry = (name, w) := by
      intro entry hentry
      have hsame : r.renderField owner name = .ok (name, w) := renderField_eq_ok_iff.2 ⟨rfl, hrenders⟩
      rw [hsame] at hentry
      exact (Except.ok.inj hentry).symm
    -- a name that is declared several times is rendered several times, and each time to the same value
    obtain ⟨entry, hmem, hentry⟩ := mem_mapM_of_eq_ok hes hname
    refine Entries.mem_ofList (hvalue entry hentry ▸ hmem) fun other hother hkey => ?_
    obtain ⟨name', -, hrendered⟩ := mem_of_mapM_eq_ok hes hother
    obtain rfl : other.1 = name' := (renderField_eq_ok_iff.1 hrendered).1
    rw [hkey] at hrendered
    rw [hvalue other hrendered]

/-- The fields of an owner are in order of their names. -/
theorem ordered_renderOwner {fields : Fields} (h : r.renderOwner owner = .ok fields) : Entries.Ordered fields := by
  rw [renderOwner_eq] at h
  obtain ⟨es, -, rfl⟩ := map_eq_ok h
  exact Entries.ordered_ofList es

/-- Template fields may be declared in any order and any number of times. -/
theorem renderOwner_of_same_names {fields : Fields} (h : r.renderOwner owner = .ok fields) {names : List String}
    (hnames : ∀ name, name ∈ names ↔ name ∈ owner.templateFields) :
    r.renderOwner { owner with templateFields := names } = .ok fields := by
  have hsame : ∀ name w, r.RendersField { owner with templateFields := names } name w ↔ r.RendersField owner name w :=
    fun _ _ => Iff.rfl
  obtain ⟨others, hothers⟩ : ∃ others, r.renderOwner { owner with templateFields := names } = .ok others := by
    refine exists_renderOwner_iff.2 fun name hname => ?_
    exact exists_renderOwner_iff.1 ⟨fields, h⟩ name ((hnames name).1 hname)
  have hlookup : ∀ name, others.lookup name = fields.lookup name := by
    intro name
    ext w
    rw [lookup_renderOwner hothers, lookup_renderOwner h, hsame]
    exact and_congr_left fun _ => hnames name
  rw [hothers, Entries.eq_of_lookup_eq (ordered_renderOwner hothers) (ordered_renderOwner h) hlookup]

/-- Rendering an owner is all or nothing, and the right field is blamed. It succeeds exactly when each template
field has a value that can be rendered under the name of the field. Then there is an entry under each of these
names, with what the value is rendered to, and none under others, and the same comes of the names in another
order or repeated. Otherwise the error is that about the first template field, as they are declared, which has
no value or one that cannot be rendered. A template error about a value, from whatever depth, bears the name of
the field and is what the engine says of the first text which it refuses among those that it is asked for; and a
value of which the engine refuses one is not rendered. -/
theorem renderOwner_all_or_nothing (r : Renderer) (owner : Owner) :
    ((∃ fields, r.renderOwner owner = .ok fields) ↔ ∀ name ∈ owner.templateFields, ∃ w, r.RendersField owner name w) ∧
      (∀ fields, r.renderOwner owner = .ok fields → Entries.Ordered fields ∧
        (∀ name w, fields.lookup name = some w ↔ name ∈ owner.templateFields ∧ r.RendersField owner name w) ∧
        ∀ names : List String, (∀ name, name ∈ names ↔ name ∈ owner.templateFields) →
          r.renderOwner { owner with templateFields := names } = .ok fields) ∧
      (∀ e, r.renderOwner owner = .error e ↔ ∃ front name back, owner.templateFields = front ++ name :: back ∧
        (∀ before ∈ front, ∃ w, r.RendersField owner before w) ∧ r.RefusesField owner name e) ∧
      ∀ name v, (∀ field source, r.render name v = .error (.template field source) →
          field = name ∧ (v.asked true).mapM r.engine = .error source) ∧
        ∀ source, (v.asked true).mapM r.engine = .error source → ∃ e, r.render name v = .error e := by
  refine ⟨exists_renderOwner_iff, fun fields h => ⟨ordered_renderOwner h, fun _ _ => lookup_renderOwner h,
    fun _ => renderOwner_of_same_names h⟩, fun _ => renderOwner_eq_error_iff, fun name v => ?_⟩
  have hblames : Blames r.engine name (v.asked true) (r.render name v) := blames_renderFrom v 0 true
  refine ⟨fun _ _ => hblames.refused, fun source hrefused => ?_⟩
  cases hrender : r.render name v with
  | error e => exact ⟨e, rfl⟩
  | ok w =>
    obtain ⟨outs, houts⟩ := hblames.answered hrender
    rw [hrefused] at houts
    cases houts

/-- A text deep inside a template field is blamed on the field, and the missing one behind it is not. -/
example : (⟨fun s => .error (.undefined s), 8⟩ : Renderer).renderOwner
    ⟨"K", ["b", "a", "none"], [], [("a", .mapping [("x", .sequence [.text "\x7b\x7by\x7d\x7d"])]), ("b", .text "y")]⟩ =
      .error (.template "a" (.undefined "\x7b\x7by\x7d\x7d")) := by
  rfl

end Renderer

end SnapshotLedger
