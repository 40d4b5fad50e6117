import SnapshotLedger.Proofs.Json.Depth
import SnapshotLedger.Proofs.Text.Digits
import SnapshotLedger.Proofs.Text.Search
import SnapshotLedger.Template.Render

/-!
# What expressions refer to

The expressions that are accepted are names with points between them (`isPath_iff`). Below the stem of the
variables such a path refers to a variable. Any other is followed name by name through the values of the context
(`Leads`), and the value that it leads to is put in as a text (`PutIn`): a string as it is, everything else as
its JSON. The engine resolves a path exactly so (`resolve?_eq_some_iff`).
-/

namespace SnapshotLedger.Template

/-! ## Names with points between them -/

/-- Names that are not empty, with points between them. -/
def IsDotted (path : List Char) : Prop :=
  ∃ names : List (List Char), names ≠ [] ∧
    (∀ name ∈ names, name ≠ [] ∧ ∀ c ∈ name, c.isAlphanum = true ∨ c = '_' ∨ c = '-') ∧ path = ['.'].intercalate names

theorem isNameChar_iff {c : Char} : isNameChar c = true ↔ c.isAlphanum = true ∨ c = '_' ∨ c = '-' := by
  simp [isNameChar, or_assoc]

/-- Names have no characters in them but those that may stand in names. -/
theorem not_mem_name {name : List Char} (h : ∀ c ∈ name, c.isAlphanum = true ∨ c = '_' ∨ c = '-') {c : Char}
    (hc : isNameChar c = false) : c ∉ name := by
  intro hmem
  rw [isNameChar_iff.2 (h c hmem)] at hc
  cases hc

/-- The paths that are accepted are names with points between them. -/
theorem isPath_iff {path : List Char} : isPath path = true ↔ IsDotted path := by
  have hname : ∀ name : List Char, (!name.isEmpty && name.all isNameChar) = true ↔
      name ≠ [] ∧ ∀ c ∈ name, c.isAlphanum = true ∨ c = '_' ∨ c = '-' := by
    intro name
    simp [isNameChar_iff]
  rw [isPath, Text.splitAt_eq_splitOn, List.all_eq_true]
  constructor
  · intro h
    exact ⟨path.splitOn '.', List.splitOn_ne_nil _ _, fun name hmem => (hname name).1 (h name hmem),
      (List.intercalate_splitOn '.').symm⟩
  · rintro ⟨names, hne, hnames, rfl⟩ name hmem
    rw [List.splitOn_intercalate '.' (fun name hmem => not_mem_name (hnames name hmem).2 rfl) hne] at hmem
    exact (hname name).2 (hnames name hmem)

/-- There are names in every path. -/
theorem IsDotted.ne_nil {path : List Char} (h : IsDotted path) : path ≠ [] := by
  rintro rfl
  rw [← isPath_iff] at h
  cases h

/-! ## Following names -/

/-- Names lead from a value into it: to the first member of an object that has a name for its key, and to the item of an
array whose number a name spells, with zeros in front or without. -/
inductive Leads : List (List Char) → Json → Json → Prop where
  | here (v : Json) : Leads [] v v
  | member {name : List Char} {names : List (List Char)} {front back : List (String × Json)} {v w : Json}
      (first : ∀ e ∈ front, e.1 ≠ String.ofList name) (rest : Leads names v w) :
      Leads (name :: names) (.object (front ++ (String.ofList name, v) :: back)) w
  | item {zeros n : Nat} {names : List (List Char)} {items : List Json} {v w : Json} (found : items[n]? = some v)
      (rest : Leads names v w) : Leads ((List.replicate zeros '0' ++ Nat.toDigits 10 n) :: names) (.array items) w

/-- The first of some names selects a value, and the others lead on from it. -/
theorem leads_cons_iff {name : List Char} {names : List (List Char)} {v w : Json} (hsign : '+' ∉ name) :
    Leads (name :: names) v w ↔ ∃ u, Context.select (String.ofList name) v = some u ∧ Leads names u w := by
  constructor
  · intro h
    cases h with
    | member first rest =>
      refine ⟨_, List.lookup_eq_some_iff.2 ⟨_, _, rfl, fun e he => ?_⟩, rest⟩
      rw [bne_iff_ne]
      exact (first e he).symm
    | item found rest =>
      refine ⟨_, ?_, rest⟩
      rw [Context.select, String.toList_ofList, (Text.unsigned?_eq_some_iff hsign).2 ⟨_, rfl⟩]
      exact found
  · rintro ⟨u, hselect, rest⟩
    cases v with
    | object ms =>
      obtain ⟨front, back, rfl, hfront⟩ := List.lookup_eq_some_iff.1 hselect
      exact .member (fun e he => (bne_iff_ne.1 (hfront e he)).symm) rest
    | array items =>
      obtain ⟨n, hn, found⟩ := Option.bind_eq_some_iff.1 hselect
      rw [String.toList_ofList] at hn
      obtain ⟨zeros, rfl⟩ := (Text.unsigned?_eq_some_iff hsign).1 hn
      exact .item found rest
    | null | bool _ | integer _ | float _ | string _ => cases hselect

/-- Selecting by one name after the other is following them. -/
theorem foldlM_select_eq_some_iff {names : List (List Char)} (hsign : ∀ name ∈ names, '+' ∉ name) {v w : Json} :
    (names.map String.ofList).foldlM (fun v name => Context.select name v) v = some w ↔ Leads names v w := by
  induction names generalizing v with
  | nil =>
    constructor
    · intro h
      cases h
      exact .here _
    · intro h
      cases h
      rfl
  | cons name names ih =>
    obtain ⟨hname, hnames⟩ := List.forall_mem_cons.1 hsign
    rw [List.map_cons, List.foldlM_cons, leads_cons_iff hname]
    simp only [← ih hnames]
    exact Option.bind_eq_some_iff

/-! ## Texts of values -/

/-- The text that a value is put in as: a string stands for itself, and any other value for its JSON, from which
it is read again. -/
inductive PutIn : Json → String → Prop where
  | string (s : String) : PutIn (.string s) s
  | document {v : Json} {text : String} (h : ∀ s, v ≠ .string s) (text_eq : text = v.compact)
      (read_iff : v.Plain → (Json.read text = .ok v ↔ v.nesting ≤ Json.deepest)) : PutIn v text

/-- Every value is put in as one text. -/
theorem putIn_iff {v : Json} {text : String} : PutIn v text ↔ valueText v = text := by
  constructor
  · intro h
    cases h with
    | string s => rfl
    | document h text_eq _ =>
      rw [text_eq, valueText]
      exact h
  · rintro rfl
    cases v with
    | string s => exact .string s
    | null | bool _ | integer _ | float _ | array _ | object _ => exact .document nofun rfl Json.read_compact_iff

/-! ## Paths -/

variable {vars : Variables} {context : Context}

/-- The text that a path refers to: below the stem of the variables that of a variable, else that of the value which its
names lead to from the values of the context. -/
inductive Refers (vars : Variables) (context : Context) : List Char → String → Prop where
  | ofVariable {name : List Char} {text : String} (h : vars (String.ofList name) = some text) :
      Refers vars context (variableStem ++ name) text
  | ofValue {names : List (List Char)} {v : Json} {text : String} (stem : ¬variableStem <+: ['.'].intercalate names)
      (nonempty : names ≠ []) (apart : ∀ name ∈ names, '.' ∉ name) (leads : Leads names (.object context.values) v)
      (put : PutIn v text) : Refers vars context (['.'].intercalate names) text

/-- The value that a path of names leads to in a context. -/
theorem lookup_eq_some_iff {names : List (List Char)} (nonempty : names ≠ []) (apart : ∀ name ∈ names, '.' ∉ name)
    (hsign : ∀ name ∈ names, '+' ∉ name) {v : Json} :
    context.lookup (String.ofList (['.'].intercalate names)) = some v ↔ Leads names (.object context.values) v := by
  rw [Context.lookup, Context.pathNames, String.toList_ofList, Text.splitAt_eq_splitOn,
    List.splitOn_intercalate '.' apart nonempty, Context.toJson, foldlM_select_eq_some_iff hsign]

/-- A path of names is resolved to the text that it refers to. -/
theorem resolve?_eq_some_iff {path : List Char} (h : IsDotted path) {text : String} :
    resolve? vars context path = some text ↔ Refers vars context path text := by
  obtain ⟨names, nonempty, hnames, rfl⟩ := h
  have apart : ∀ name ∈ names, '.' ∉ name := fun name hname => not_mem_name (hnames name hname).2 rfl
  have hsign : ∀ name ∈ names, '+' ∉ name := fun name hname => not_mem_name (hnames name hname).2 rfl
  rw [resolve?]
  constructor
  · intro h
    split at h
    · next hstem =>
      obtain ⟨name, hname⟩ := List.isPrefixOf_iff_prefix.1 hstem
      rw [← hname, List.drop_left] at h
      rw [← hname]
      exact .ofVariable h
    · next hstem =>
      obtain ⟨v, hv, htext⟩ := Option.map_eq_some_iff.1 h
      exact .ofValue (fun hpre => hstem (List.isPrefixOf_iff_prefix.2 hpre)) nonempty apart
        ((lookup_eq_some_iff nonempty apart hsign).1 hv) (putIn_iff.2 htext)
  · intro h
    generalize hpath : ['.'].intercalate names = path at h
    cases h with
    | ofVariable h => rw [if_pos (List.isPrefixOf_iff_prefix.2 (List.prefix_append _ _)), List.drop_left, h]
    | @ofValue others v _ stem nonempty' apart' leads put =>
      -- the names of a path are told by its points
      have hsame := congrArg (List.splitOn '.') hpath
      rw [List.splitOn_intercalate '.' apart nonempty, List.splitOn_intercalate '.' apart' nonempty'] at hsame
      subst hsame
      rw [if_neg fun hpre => stem (List.isPrefixOf_iff_prefix.1 hpre),
        (lookup_eq_some_iff nonempty apart hsign).2 leads, Option.map_some, putIn_iff.1 put]

end SnapshotLedger.Template
