import SnapshotLedger.Redaction.Fields

/-!
# Redaction masks path by path

A leaf of a rendered value is what is no sequence, no mapping and no object, and its path are the keys that it
stands under; places in sequences are no part of paths. Redaction keeps the shape, which is the value without
what its leaves hold, and does the same to every leaf, by its path alone (`Redaction.Policy.maskedLeaf`). It
fails exactly when the policy fails on something that no key above hides (`Redaction.Policy.applyTo_masks`). A
shape and the leaves are all that there is (`Rendered.entries_eq_of_shape_of_leaves`).
-/

namespace SnapshotLedger

/-! ## Shapes, leaves and keys -/

namespace Rendered

mutual

/-- The value with nothing in its leaves. -/
def shape : Rendered → Rendered
  | null | bool _ | integer _ | float _ | text _ => null
  | sequence vs => sequence (shapeItems vs)
  | mapping es => mapping (shapeEntries es)
  | object kind names es => object kind names (shapeEntries es)

/-- The shapes of items. -/
def shapeItems : List Rendered → List Rendered
  | [] => []
  | v :: vs => shape v :: shapeItems vs

/-- The keys of entries with the shapes of their values. -/
def shapeEntries : List (String × Rendered) → List (String × Rendered)
  | [] => []
  | (k, v) :: es => (k, shape v) :: shapeEntries es

end

mutual

/-- The leaves of a value under some keys, with their paths. -/
def leaves (path : List String) : Rendered → List (List String × Rendered)
  | null => [(path, null)]
  | bool b => [(path, bool b)]
  | integer n => [(path, integer n)]
  | float x => [(path, float x)]
  | text s => [(path, text s)]
  | sequence vs => leavesItems path vs
  | mapping es => leavesEntries path es
  | object _ _ es => leavesEntries path es

/-- The leaves of items, which add nothing to paths. -/
def leavesItems (path : List String) : List Rendered → List (List String × Rendered)
  | [] => []
  | v :: vs => leaves path v ++ leavesItems path vs

/-- The leaves of entries, each under the key of its entry as well. -/
def leavesEntries (path : List String) : List (String × Rendered) → List (List String × Rendered)
  | [] => []
  | (k, v) :: es => leaves (path ++ [k]) v ++ leavesEntries path es

end

mutual

/-- The keys in a value, each with the keys above it. -/
def keys (path : List String) : Rendered → List (List String × String)
  | null | bool _ | integer _ | float _ | text _ => []
  | sequence vs => keysItems path vs
  | mapping es => keysEntries path es
  | object _ _ es => keysEntries path es

/-- The keys in items. -/
def keysItems (path : List String) : List Rendered → List (List String × String)
  | [] => []
  | v :: vs => keys path v ++ keysItems path vs

/-- The keys of entries and those in their values. -/
def keysEntries (path : List String) : List (String × Rendered) → List (List String × String)
  | [] => []
  | (k, v) :: es => (path, k) :: (keys (path ++ [k]) v ++ keysEntries path es)

end

end Rendered

namespace Rendered

/-- What has the shape of a leaf is a leaf. -/
theorem leaves_of_shape_null {r : Rendered} (h : r.shape = null) (path : List String) :
    r.leaves path = [(path, r)] := by
  cases r <;> first | rfl | cases h

/-- A value with the shape of a leaf and what is in front of its leaves. -/
theorem eq_of_leaf {r v : Rendered} (hr : r.shape = null) (hv : v.shape = null) {path : List String}
    {rest rest' : List (List String × Rendered)} (hleaves : r.leaves path ++ rest = v.leaves path ++ rest') :
    r = v ∧ rest = rest' := by
  rw [leaves_of_shape_null hr, leaves_of_shape_null hv] at hleaves
  obtain ⟨heq, hrest⟩ := List.cons.inj hleaves
  exact ⟨(Prod.mk.inj heq).2, hrest⟩

mutual

/-- Values of one shape whose leaves open two equal lists are equal, and so are the rests of the lists. -/
theorem eq_of_shape : (v : Rendered) → ∀ {r : Rendered} {path : List String}
    {rest rest' : List (List String × Rendered)},
    r.shape = v.shape → r.leaves path ++ rest = v.leaves path ++ rest' → r = v ∧ rest = rest'
  | null, _, _, _, _, hshape, hleaves => eq_of_leaf hshape rfl hleaves
  | bool _, _, _, _, _, hshape, hleaves => eq_of_leaf hshape rfl hleaves
  | integer _, _, _, _, _, hshape, hleaves => eq_of_leaf hshape rfl hleaves
  | float _, _, _, _, _, hshape, hleaves => eq_of_leaf hshape rfl hleaves
  | text _, _, _, _, _, hshape, hleaves => eq_of_leaf hshape rfl hleaves
  | sequence vs, r, _, _, _, hshape, hleaves => by
    cases r <;> simp only [shape, reduceCtorEq, sequence.injEq] at hshape
    obtain ⟨rfl, hrest⟩ := eq_of_shapeItems vs hshape hleaves
    exact ⟨rfl, hrest⟩
  | mapping es, r, _, _, _, hshape, hleaves => by
    cases r <;> simp only [shape, reduceCtorEq, mapping.injEq] at hshape
    obtain ⟨rfl, hrest⟩ := eq_of_shapeEntries es hshape hleaves
    exact ⟨rfl, hrest⟩
  | object kind names es, r, _, _, _, hshape, hleaves => by
    cases r <;> simp only [shape, reduceCtorEq, object.injEq] at hshape
    obtain ⟨rfl, rfl, hentries⟩ := hshape
    obtain ⟨rfl, hrest⟩ := eq_of_shapeEntries es hentries hleaves
    exact ⟨rfl, hrest⟩

/-- Items of equal shapes with the same leaves are equal. -/
theorem eq_of_shapeItems : (vs : List Rendered) → ∀ {rs : List Rendered} {path : List String}
    {rest rest' : List (List String × Rendered)}, shapeItems rs = shapeItems vs →
    leavesItems path rs ++ rest = leavesItems path vs ++ rest' → rs = vs ∧ rest = rest'
  | [], rs, _, _, _, hshape, hleaves => by
    cases rs with
    | nil => exact ⟨rfl, hleaves⟩
    | cons r rs => cases hshape
  | v :: vs, rs, _, _, _, hshape, hleaves => by
    cases rs with
    | nil => cases hshape
    | cons r rs =>
      simp only [shapeItems, List.cons.injEq] at hshape
      simp only [leavesItems, List.append_assoc] at hleaves
      obtain ⟨rfl, hbehind⟩ := eq_of_shape v hshape.1 hleaves
      obtain ⟨rfl, hrest⟩ := eq_of_shapeItems vs hshape.2 hbehind
      exact ⟨rfl, hrest⟩

/-- Entries with equal keys and shapes and the same leaves are equal. -/
theorem eq_of_shapeEntries : (es : List (String × Rendered)) → ∀ {rs : List (String × Rendered)} {path : List String}
    {rest rest' : List (List String × Rendered)}, shapeEntries rs = shapeEntries es →
    leavesEntries path rs ++ rest = leavesEntries path es ++ rest' → rs = es ∧ rest = rest'
  | [], rs, _, _, _, hshape, hleaves => by
    cases rs with
    | nil => exact ⟨rfl, hleaves⟩
    | cons r rs => cases hshape
  | (k, v) :: es, rs, _, _, _, hshape, hleaves => by
    cases rs with
    | nil => cases hshape
    | cons r rs =>
      obtain ⟨l, w⟩ := r
      simp only [shapeEntries, List.cons.injEq, Prod.mk.injEq] at hshape
      obtain ⟨⟨rfl, hvalue⟩, hshape⟩ := hshape
      simp only [leavesEntries, List.append_assoc] at hleaves
      obtain ⟨rfl, hbehind⟩ := eq_of_shape v hvalue hleaves
      obtain ⟨rfl, hrest⟩ := eq_of_shapeEntries es hshape hbehind
      exact ⟨rfl, hrest⟩

end

/-- A shape and the leaves with their paths are the whole of some entries. -/
theorem entries_eq_of_shape_of_leaves {rs es : List (String × Rendered)} {path : List String}
    (hshape : shapeEntries rs = shapeEntries es) (hleaves : leavesEntries path rs = leavesEntries path es) : rs = es :=
  (eq_of_shapeEntries es hshape (congrArg (· ++ []) hleaves)).1

end Rendered

/-! ## Masks -/

namespace Redaction.Policy

variable (p : Redaction.Policy)

/-- The policy answers that a key hides what is under it. -/
def saysHidden (k : String) : Prop := p.hides k = .ok true

/-- No key of a path hides what is under it. -/
def Shows (path : List String) : Prop := ∀ k ∈ path, ¬p.saysHidden k

/-- The policy is asked about a key under some keys and fails. -/
def FailsOnKey (place : List String × String) : Prop := p.Shows place.1 ∧ ∃ e, p.hides place.2 = .error e

/-- The policy is asked about a text under some keys and fails. -/
def FailsOnLeaf (leaf : List String × Rendered) : Prop :=
  p.Shows leaf.1 ∧ ∃ s, leaf.2 = .text s ∧ ∃ e, p.scrub s = .error e

instance (k : String) : Decidable (p.saysHidden k) :=
  match h : p.hides k with
  | .ok true => isTrue h
  | .ok false => isFalse fun heq => by rw [saysHidden, h] at heq; cases heq
  | .error _ => isFalse fun heq => by rw [saysHidden, h] at heq; cases heq

instance (path : List String) : Decidable (p.Shows path) := inferInstanceAs (Decidable (∀ k ∈ path, ¬p.saysHidden k))

/-- What scrubbing leaves of a text. -/
def scrubbed (s : String) : String :=
  match p.scrub s with
  | .ok (some t) => t
  | _ => s

/-- What is shown of a leaf: nulls stay, the marker stands for all others under a key that hides, and of the
rest the texts are scrubbed. -/
def maskedLeaf (leaf : List String × Rendered) : List String × Rendered :=
  (leaf.1, match leaf.2 with
    | .null => .null
    | v => if p.Shows leaf.1 then
        match v with
        | .text s => .text (p.scrubbed s)
        | v => v
      else .text p.marker)

/-- A leaf that is masked stays what it is, or it becomes a text. -/
theorem maskedLeaf_eq_or_text (leaf : List String × Rendered) :
    (p.maskedLeaf leaf).2 = leaf.2 ∨ ∃ s, (p.maskedLeaf leaf).2 = .text s := by
  obtain ⟨path, v⟩ := leaf
  unfold maskedLeaf
  dsimp only
  split
  · exact .inl rfl
  · split
    · split
      · exact .inr ⟨_, rfl⟩
      · exact .inl rfl
    · exact .inr ⟨_, rfl⟩

/-! ## Redaction of parts -/

/-- An answer that fails only for a reason, and otherwise is as it should be. -/
def Agrees {α : Type} (fails : Prop) (right : α → Prop) : Except Redaction.Error α → Prop
  | .error _ => fails
  | .ok r => ¬fails ∧ right r

/-- One step after another fails for the reasons of both. -/
theorem Agrees.bind {α β : Type} {fails fails' : Prop} {right : α → Prop} {right' : β → Prop}
    {x : Except Redaction.Error α} {g : α → Except Redaction.Error β} (h : Agrees fails right x)
    (hg : ∀ r, right r → Agrees fails' right' (g r)) :
    Agrees (fails ∨ fails') right' (x >>= g) := by
  cases x with
  | error e => exact .inl h
  | ok r =>
    have hnext := hg r h.2
    change Agrees (fails ∨ fails') right' (g r)
    cases hr : g r with
    | error e =>
      rw [hr] at hnext
      exact .inr hnext
    | ok r' =>
      rw [hr] at hnext
      exact ⟨not_or.2 ⟨h.1, hnext.1⟩, hnext.2⟩

/-- A last step that cannot fail. -/
theorem Agrees.map {α β : Type} {fails : Prop} {right : α → Prop} {right' : β → Prop}
    {x : Except Redaction.Error α} {g : α → β} (h : Agrees fails right x) (hg : ∀ r, right r → right' (g r)) :
    Agrees fails right' (x >>= fun r => .ok (g r)) := by
  cases x with
  | error e => exact h
  | ok r => exact ⟨h.1, hg r h.2⟩

/-- The policy fails on some of these keys or some of these leaves. -/
def FailsOn (keys : List (List String × String)) (leaves : List (List String × Rendered)) : Prop :=
  (∃ place ∈ keys, p.FailsOnKey place) ∨ ∃ leaf ∈ leaves, p.FailsOnLeaf leaf

variable {p}

/-- The policy fails on keys and leaves of two parts when it fails on those of one of them. -/
theorem failsOn_append {ks ks' : List (List String × String)} {ls ls' : List (List String × Rendered)} :
    p.FailsOn (ks ++ ks') (ls ++ ls') ↔ p.FailsOn ks ls ∨ p.FailsOn ks' ls' := by
  simp only [FailsOn, List.mem_append, or_and_right, exists_or]
  constructor
  · rintro ((h | h) | (h | h))
    · exact .inl (.inl h)
    · exact .inr (.inl h)
    · exact .inl (.inr h)
    · exact .inr (.inr h)
  · rintro ((h | h) | (h | h))
    · exact .inl (.inl h)
    · exact .inr (.inl h)
    · exact .inl (.inr h)
    · exact .inr (.inr h)

/-- The policy fails on one more key, or on the others. -/
theorem failsOn_cons {place : List String × String} {ks : List (List String × String)}
    {ls : List (List String × Rendered)} :
    p.FailsOn (place :: ks) ls ↔ p.FailsOnKey place ∨ p.FailsOn ks ls := by
  simp only [FailsOn, List.mem_cons, exists_eq_or_imp, or_assoc]

/-- Agreement depends on what the reasons mean. -/
theorem Agrees.congr {α : Type} {fails fails' : Prop} {right : α → Prop} {x : Except Redaction.Error α}
    (h : Agrees fails right x) (hfails : fails ↔ fails') : Agrees fails' right x := by
  cases x with
  | error e => exact hfails.1 h
  | ok r => exact ⟨fun hf => h.1 (hfails.2 hf), h.2⟩

/-- The path of a value is hidden exactly when redaction is told so. -/
def Tells (p : Redaction.Policy) (masked : Bool) (path : List String) : Prop := masked = false ↔ p.Shows path

/-- A value is redacted as its leaves are. -/
def Redacts (p : Redaction.Policy) (path : List String) (v r : Rendered) : Prop :=
  r.shape = v.shape ∧ r.leaves path = (v.leaves path).map p.maskedLeaf

/-- A leaf that is no text cannot fail. -/
theorem not_failsOn_leaf {path : List String} {v : Rendered} (h : ∀ s, v ≠ .text s) : ¬p.FailsOn [] [(path, v)] := by
  rintro (⟨_, hmem, -⟩ | ⟨leaf, hmem, -, s, heq, -⟩)
  · exact List.not_mem_nil hmem
  · rw [List.mem_singleton.1 hmem] at heq
    exact h s heq

/-- A key below some keys is looked at unless one of those hides it, and then it tells whether the path goes on
hidden. -/
theorem agrees_hides {masked : Bool} {path : List String} (h : Tells p masked path) (k : String) :
    Agrees (p.FailsOnKey (path, k)) (fun here => Tells p here (path ++ [k]))
      (if masked then Except.ok true else p.hides k) := by
  have happend : p.Shows (path ++ [k]) ↔ p.Shows path ∧ ¬p.saysHidden k := by
    simp only [Shows, List.forall_mem_append, List.forall_mem_singleton]
  cases masked with
  | true =>
    have hhidden : ¬p.Shows path := fun hshows => nomatch h.2 hshows
    exact ⟨fun hfails => hhidden hfails.1, ⟨nofun, fun hshows => absurd (happend.1 hshows).1 hhidden⟩⟩
  | false =>
    have hshows : p.Shows path := h.1 rfl
    rw [if_neg Bool.false_ne_true]
    cases hanswer : p.hides k with
    | error e => exact ⟨hshows, e, hanswer⟩
    | ok here =>
      refine ⟨?_, ?_⟩
      · rintro ⟨-, e, heq⟩
        rw [hanswer] at heq
        cases heq
      · unfold Tells
        rw [happend, saysHidden, hanswer]
        cases here with
        | true => exact ⟨nofun, fun hboth => absurd rfl hboth.2⟩
        | false => exact ⟨fun _ => ⟨hshows, nofun⟩, fun _ => rfl⟩

/-- A leaf that is neither null nor a text stays where it is shown, and the marker stands for it where it is hidden. -/
theorem redacts_leaf {masked : Bool} {path : List String} (h : Tells p masked path) {v : Rendered} (hnull : v ≠ .null)
    (htext : ∀ s, v ≠ .text s) (hleaf : v.leaves path = [(path, v)]) (hshape : v.shape = .null) :
    Redacts p path v (if masked then .text p.marker else v) := by
  cases masked with
  | true =>
    have hhidden : ¬p.Shows path := fun hshows => nomatch h.2 hshows
    refine ⟨by rw [hshape]; rfl, ?_⟩
    rw [hleaf, List.map_singleton, if_pos rfl, maskedLeaf]
    split
    · next heq => exact absurd heq hnull
    · rw [if_neg hhidden]
      rfl
  | false =>
    refine ⟨rfl, ?_⟩
    rw [if_neg Bool.false_ne_true, hleaf, List.map_singleton, maskedLeaf]
    split
    · next heq => exact absurd heq hnull
    · rw [if_pos (h.1 rfl)]
      split
      · next heq => exact absurd heq (htext _)
      · rfl

/-- A text is scrubbed where it is shown, and the marker stands for it where it is hidden. -/
theorem agrees_text {masked : Bool} {path : List String} (h : Tells p masked path) (s : String) :
    Agrees (p.FailsOn [] [(path, .text s)]) (Redacts p path (.text s)) (p.redact masked (.text s)) := by
  rw [redact]
  cases masked with
  | true =>
    have hhidden : ¬p.Shows path := fun hshows => nomatch h.2 hshows
    refine ⟨?_, rfl, ?_⟩
    · rintro (⟨_, hmem, -⟩ | ⟨leaf, hmem, hshows, -⟩)
      · exact List.not_mem_nil hmem
      · rw [List.mem_singleton.1 hmem] at hshows
        exact hhidden hshows
    · simp only [Rendered.leaves, List.map_singleton, maskedLeaf, if_neg hhidden]
  | false =>
    have hshows : p.Shows path := h.1 rfl
    rw [if_neg Bool.false_ne_true]
    cases hanswer : p.scrub s with
    | error e => exact .inr ⟨_, List.mem_singleton.2 rfl, hshows, s, rfl, e, hanswer⟩
    | ok scrubbed =>
      refine ⟨?_, rfl, ?_⟩
      · rintro (⟨_, hmem, -⟩ | ⟨leaf, hmem, -, t, heq, e, herror⟩)
        · exact List.not_mem_nil hmem
        · rw [List.mem_singleton.1 hmem] at heq
          cases heq
          rw [hanswer] at herror
          cases herror
      · simp only [Rendered.leaves, List.map_singleton, maskedLeaf, if_pos hshows, Policy.scrubbed, hanswer]
        cases scrubbed <;> rfl

/-- An entry is redacted before those behind it. -/
theorem redactEntries_cons (p : Redaction.Policy) (masked : Bool) (k : String) (v : Rendered)
    (es : List (String × Rendered)) :
    p.redactEntries masked ((k, v) :: es) = ((if masked then Except.ok true else p.hides k) >>= fun here =>
      p.redact here v >>= fun r => p.redactEntries masked es >>= fun rs => .ok ((k, r) :: rs)) := by
  cases masked <;> rfl

mutual

/-- A value is redacted as its leaves are, and fails when one of its keys or leaves does. -/
theorem agrees_redact : (v : Rendered) → ∀ {masked : Bool} {path : List String}, Tells p masked path →
    Agrees (p.FailsOn (v.keys path) (v.leaves path)) (Redacts p path v) (p.redact masked v)
  | .null, masked, path, _ => ⟨not_failsOn_leaf nofun, rfl, rfl⟩
  | .bool _, _, _, h => ⟨not_failsOn_leaf nofun, redacts_leaf h nofun nofun rfl rfl⟩
  | .integer _, _, _, h => ⟨not_failsOn_leaf nofun, redacts_leaf h nofun nofun rfl rfl⟩
  | .float _, _, _, h => ⟨not_failsOn_leaf nofun, redacts_leaf h nofun nofun rfl rfl⟩
  | .text s, _, _, h => agrees_text h s
  | .sequence vs, masked, path, h => by
    refine (agrees_redactItems vs h).map fun rs hrs => ?_
    simp only [Redacts, Rendered.shape, Rendered.leaves, hrs.1, hrs.2, and_self]
  | .mapping es, masked, path, h => by
    refine (agrees_redactEntries es h).map fun rs hrs => ?_
    simp only [Redacts, Rendered.shape, Rendered.leaves, hrs.1, hrs.2, and_self]
  | .object kind names es, masked, path, h => by
    refine (agrees_redactEntries es h).map fun rs hrs => ?_
    simp only [Redacts, Rendered.shape, Rendered.leaves, hrs.1, hrs.2, and_self]

/-- Items are redacted one after the other. -/
theorem agrees_redactItems : (vs : List Rendered) → ∀ {masked : Bool} {path : List String}, Tells p masked path →
    Agrees (p.FailsOn (Rendered.keysItems path vs) (Rendered.leavesItems path vs))
      (fun rs => Rendered.shapeItems rs = Rendered.shapeItems vs ∧
        Rendered.leavesItems path rs = (Rendered.leavesItems path vs).map p.maskedLeaf) (p.redactItems masked vs)
  | [], _, _, _ => ⟨by simp [FailsOn, Rendered.keysItems, Rendered.leavesItems], rfl, rfl⟩
  | v :: vs, masked, path, h => by
    refine Agrees.congr ((agrees_redact v h).bind fun r hr => (agrees_redactItems vs h).map fun rs hrs =>
      ?_) failsOn_append.symm
    simp only [Rendered.shapeItems, Rendered.leavesItems, hr.1, hr.2, hrs.1, hrs.2, List.map_append, and_self]

/-- Entries are redacted one after the other, each by what its key tells. -/
theorem agrees_redactEntries : (es : List (String × Rendered)) → ∀ {masked : Bool}
    {path : List String}, Tells p masked path →
    Agrees (p.FailsOn (Rendered.keysEntries path es) (Rendered.leavesEntries path es))
      (fun rs => Rendered.shapeEntries rs = Rendered.shapeEntries es ∧
        Rendered.leavesEntries path rs = (Rendered.leavesEntries path es).map p.maskedLeaf) (p.redactEntries masked es)
  | [], _, _, _ => ⟨by simp [FailsOn, Rendered.keysEntries, Rendered.leavesEntries], rfl, rfl⟩
  | (k, v) :: es, masked, path, h => by
    rw [redactEntries_cons]
    refine Agrees.congr ((agrees_hides h k).bind fun here hhere => (agrees_redact v hhere).bind fun r hr =>
      (agrees_redactEntries es h).map fun rs hrs => ?_) ?_
    · simp only [Rendered.shapeEntries, Rendered.leavesEntries, hr.1, hr.2, hrs.1, hrs.2, List.map_append, and_self]
    · rw [Rendered.keysEntries, Rendered.leavesEntries, failsOn_cons, failsOn_append]

end

/-- No key stands above the fields. -/
theorem tells_nil (p : Redaction.Policy) : Tells p false [] := ⟨fun _ _ hk => absurd hk List.not_mem_nil, fun _ => rfl⟩

/-- The leaves of redacted fields are those of the fields, each of them masked. -/
theorem leaves_of_applyTo {fields r : Fields} (h : p.applyTo fields = .ok r) :
    Rendered.leavesEntries [] r = (Rendered.leavesEntries [] fields).map p.maskedLeaf := by
  have hagrees := agrees_redactEntries fields (tells_nil p)
  rw [applyTo] at h
  rw [h] at hagrees
  exact hagrees.2.2

/-- The shape of redacted fields is that of the fields. -/
theorem shape_of_applyTo {fields r : Fields} (h : p.applyTo fields = .ok r) :
    Rendered.shapeEntries r = Rendered.shapeEntries fields := by
  have hagrees := agrees_redactEntries fields (tells_nil p)
  rw [applyTo] at h
  rw [h] at hagrees
  exact hagrees.2.1

/-- Redaction fails exactly when the policy fails on something that it has to decide. -/
theorem applyTo_fails_iff {fields : Fields} : (∃ e, p.applyTo fields = .error e) ↔
    p.FailsOn (Rendered.keysEntries [] fields) (Rendered.leavesEntries [] fields) := by
  have hagrees := agrees_redactEntries fields (tells_nil p)
  rw [applyTo]
  cases hanswer : p.redactEntries false fields with
  | error e =>
    rw [hanswer] at hagrees
    exact ⟨fun _ => hagrees, fun _ => ⟨e, rfl⟩⟩
  | ok r =>
    rw [hanswer] at hagrees
    exact ⟨nofun, fun hfails => absurd hfails hagrees.1⟩

/-- Fields on which the policy does not fail are redacted. -/
theorem exists_applyTo {fields : Fields}
    (h : ¬p.FailsOn (Rendered.keysEntries [] fields) (Rendered.leavesEntries [] fields)) :
    ∃ r, p.applyTo fields = .ok r := by
  cases hanswer : p.applyTo fields with
  | error e => exact absurd (applyTo_fails_iff.1 ⟨e, hanswer⟩) h
  | ok r => exact ⟨r, rfl⟩

/-- Redaction is exactly the mask, path by path, and fails closed. It fails when the policy fails on a key or on
a text that no key above hides. Otherwise the shape of the fields stays, and so do the paths of their leaves,
and every leaf is masked by its path. -/
theorem applyTo_masks (p : Redaction.Policy) (fields : Fields) :
    ((∃ e, p.applyTo fields = .error e) ↔
      p.FailsOn (Rendered.keysEntries [] fields) (Rendered.leavesEntries [] fields)) ∧
      (¬p.FailsOn (Rendered.keysEntries [] fields) (Rendered.leavesEntries [] fields) → ∃ r, p.applyTo fields = .ok r ∧
        Rendered.shapeEntries r = Rendered.shapeEntries fields ∧
        Rendered.leavesEntries [] r = (Rendered.leavesEntries [] fields).map p.maskedLeaf) := by
  refine ⟨applyTo_fails_iff, fun hdecides => ?_⟩
  obtain ⟨r, h⟩ := exists_applyTo hdecides
  exact ⟨r, h, shape_of_applyTo h, leaves_of_applyTo h⟩

end Redaction.Policy

end SnapshotLedger
