import SnapshotLedger.Proofs.Answers
import SnapshotLedger.Proofs.Redaction.Mask
import SnapshotLedger.Proofs.Text.Blank
import SnapshotLedger.Proofs.Text.Search
import SnapshotLedger.Redaction.Masker

/-!
# Secrets of a masker

The values of variables with sensitive names are among the secrets of a masker that was given them, and nothing
else is added to its secrets (`mem_secrets_withVariables_iff`). A secret that shares no character with the
marker occurs in no text that the masker leaves (`not_contains_maskedLeaf`).
-/

namespace SnapshotLedger.Masker

/-! ## Patterns -/

/-- The patterns are those seen before and one for each name. -/
theorem mem_patternsOf {names seen patterns : List String} (h : patternsOf seen names = .ok patterns)
    {pattern : String} :
    pattern ∈ patterns ↔ pattern ∈ seen ∨ ∃ name ∈ names, Text.lower (Text.trim name) = pattern := by
  induction names generalizing seen with
  | nil =>
    obtain rfl : seen = patterns := Except.ok.inj h
    simp
  | cons name names ih =>
    rw [patternsOf] at h
    rw [List.exists_mem_cons_iff, ← or_assoc]
    split at h
    · cases h
    split at h
    · next hold =>
      have hseen : Text.lower (Text.trim name) = pattern → pattern ∈ seen :=
        fun hsame => hsame ▸ List.contains_iff_mem.1 hold
      rw [ih h, or_iff_left_of_imp hseen]
    · rw [ih h, List.mem_append, List.mem_singleton, eq_comm (a := pattern)]

/-- There are patterns for names of which none is blank. -/
theorem exists_patternsOf_iff {names : List String} (seen : List String) :
    (∃ patterns, patternsOf seen names = .ok patterns) ↔ ∀ name ∈ names, Text.isBlank name = false := by
  induction names generalizing seen with
  | nil => exact ⟨fun _ => nofun, fun _ => ⟨seen, rfl⟩⟩
  | cons name names ih =>
    rw [patternsOf, List.forall_mem_cons]
    split
    · next hempty =>
      have hblank : Text.isBlank name = true := Text.isBlank_iff.2 (String.isEmpty_iff.1 hempty)
      rw [hblank]
      exact ⟨nofun, fun h => nomatch h.1⟩
    · next hfilled =>
      have hblank : Text.isBlank name = false := by
        rw [Bool.eq_false_iff, ne_eq, Text.isBlank_iff, ← String.isEmpty_iff]
        exact hfilled
      split <;> rw [ih, hblank, eq_self_iff_true, true_and]

/-- A masker that can be made has a marker that is not empty, and the names in lower case without blanks as its
patterns. -/
theorem create_eq_ok {names : List String} {marker : String} {m : Masker} (h : create names marker = .ok m) :
    m.marker = marker ∧ marker.isEmpty = false ∧
      ∀ pattern, pattern ∈ m.patterns ↔ ∃ name ∈ names, Text.lower (Text.trim name) = pattern := by
  obtain ⟨patterns, hpatterns, h⟩ := bind_eq_ok h
  dsimp only at h
  split at h
  · cases h
  · next hmarker =>
    cases h
    refine ⟨rfl, Bool.eq_false_iff.2 hmarker, fun pattern => ?_⟩
    rw [mem_patternsOf hpatterns, or_iff_right List.not_mem_nil]

/-- A masker that was just made has no secrets. -/
theorem secrets_of_create {names : List String} {marker : String} {m : Masker} (h : create names marker = .ok m) :
    m.secrets = [] := by
  obtain ⟨patterns, -, h⟩ := bind_eq_ok h
  dsimp only at h
  split at h <;> cases h
  rfl

/-- A masker can be made of names of which none is blank, and a marker that is not empty. -/
theorem exists_create_iff {names : List String} {marker : String} : (∃ m, create names marker = .ok m) ↔
    (∀ name ∈ names, Text.isBlank name = false) ∧ marker.isEmpty = false := by
  rw [← exists_patternsOf_iff []]
  constructor
  · rintro ⟨m, h⟩
    obtain ⟨patterns, hpatterns, -⟩ := bind_eq_ok h
    exact ⟨⟨patterns, hpatterns⟩, (create_eq_ok h).2.1⟩
  · rintro ⟨⟨patterns, hpatterns⟩, hmarker⟩
    refine ⟨⟨patterns, [], marker⟩, ?_⟩
    rw [create, hpatterns, hmarker]
    rfl

/-- A name is sensitive when one of the patterns occurs in it. -/
theorem isSensitive_of_mem {m : Masker} {pattern name : String} (hpattern : pattern ∈ m.patterns)
    (hcontains : Text.contains (Text.lower name) pattern = true) : m.isSensitive name = true :=
  List.any_eq_true.2 ⟨pattern, hpattern, hcontains⟩

/-! ## Secrets -/

/-- The secrets with one more are that one and those before. -/
theorem mem_insertSecret {secret s : String} {secrets : List String} :
    s ∈ insertSecret secret secrets ↔ s = secret ∨ s ∈ secrets := by
  induction secrets with
  | nil => exact List.mem_cons
  | cons t secrets ih =>
    unfold insertSecret
    split
    · exact List.mem_cons
    split
    · next heq =>
      subst heq
      rw [List.mem_cons]
      exact ⟨.inr, fun h => h.elim .inl id⟩
    · rw [List.mem_cons, ih, List.mem_cons]
      exact or_left_comm

/-- One more secret changes neither marker nor patterns, and is added unless it is blank. -/
theorem withSecret_spec (m : Masker) (secret : String) :
    (m.withSecret secret).marker = m.marker ∧ (m.withSecret secret).patterns = m.patterns ∧
      ∀ s, s ∈ (m.withSecret secret).secrets ↔ s ∈ m.secrets ∨ secret = s ∧ Text.isBlank s = false := by
  unfold withSecret
  split
  · next hblank =>
    refine ⟨rfl, rfl, fun s => (or_iff_left ?_).symm⟩
    rintro ⟨rfl, hfilled⟩
    rw [hblank] at hfilled
    cases hfilled
  · next hfilled =>
    refine ⟨rfl, rfl, fun s => ?_⟩
    have hadded : secret = s ∧ Text.isBlank s = false ↔ secret = s := by
      apply and_iff_left_of_imp
      rintro rfl
      exact Bool.eq_false_iff.2 hfilled
    rw [mem_insertSecret, hadded, or_comm, eq_comm]

/-- More secrets change neither marker nor patterns, and those given that are not blank are added. -/
theorem foldl_withSecret_spec (entries : List (String × String)) (m : Masker) :
    (entries.foldl (fun m e => m.withSecret e.2) m).marker = m.marker ∧
      (entries.foldl (fun m e => m.withSecret e.2) m).patterns = m.patterns ∧
      ∀ s, s ∈ (entries.foldl (fun m e => m.withSecret e.2) m).secrets ↔
        s ∈ m.secrets ∨ ∃ e ∈ entries, e.2 = s ∧ Text.isBlank s = false := by
  induction entries generalizing m with
  | nil => exact ⟨rfl, rfl, fun s => by simp⟩
  | cons e entries ih =>
    obtain ⟨hmarker, hpatterns, hadded⟩ := withSecret_spec m e.2
    obtain ⟨hmarker', hpatterns', hsecrets⟩ := ih (m.withSecret e.2)
    refine ⟨hmarker'.trans hmarker, hpatterns'.trans hpatterns, fun s => ?_⟩
    rw [List.foldl_cons, hsecrets, hadded, List.exists_mem_cons_iff, or_assoc]

/-- The secrets are those before, and the values of the variables with sensitive names that are not blank. -/
theorem mem_secrets_withVariables_iff {m : Masker} {entries : List (String × String)} {value : String} :
    value ∈ (m.withVariables entries).1.secrets ↔
      value ∈ m.secrets ∨ ∃ name, (name, value) ∈ entries ∧ m.isSensitive name = true ∧ Text.isBlank value = false := by
  rw [withVariables, (foldl_withSecret_spec _ m).2.2]
  refine or_congr_right ⟨?_, ?_⟩
  · rintro ⟨⟨name, value⟩, hin, rfl, hblank⟩
    obtain ⟨hmem, htaken⟩ := List.mem_filter.1 hin
    exact ⟨name, hmem, (Bool.and_eq_true_iff.1 htaken).1, hblank⟩
  · rintro ⟨name, hmem, hsensitive, hblank⟩
    have htaken : m.isSecretVariable (name, value) = true := by rw [isSecretVariable, hsensitive, hblank]; rfl
    exact ⟨(name, value), List.mem_filter.2 ⟨hmem, htaken⟩, rfl, hblank⟩

/-- The value of a variable with a sensitive name is a secret, unless it is blank. -/
theorem mem_secrets_withVariables {m : Masker} {entries : List (String × String)} {name value : String}
    (hmem : (name, value) ∈ entries) (hsensitive : m.isSensitive name = true) (hblank : Text.isBlank value = false) :
    value ∈ (m.withVariables entries).1.secrets :=
  mem_secrets_withVariables_iff.2 (.inr ⟨name, hmem, hsensitive, hblank⟩)

/-! ## Scrubbing -/

/-- Replacing secrets brings no text in that cannot overlap with the marker, and takes those of them away that
do not overlap with it. -/
theorem not_infix_foldl_replaceAll {marker : List Char} {v : String} (hv : v.toList ≠ [])
    (h : Text.Apart v.toList marker) (secrets : List String) (s : List Char) (hor : v ∈ secrets ∨ ¬v.toList <:+: s) :
    ¬v.toList <:+: secrets.foldl (fun s secret => Text.replaceAll secret.toList marker s) s := by
  induction secrets generalizing s with
  | nil => exact hor.resolve_left List.not_mem_nil
  | cons secret secrets ih =>
    rw [List.foldl_cons]
    apply ih
    by_cases heq : v = secret
    · rw [← heq]
      exact .inr (Text.not_infix_replaceAll hv h s)
    · rcases hor with hmem | habsent
      · exact .inl ((List.mem_cons.1 hmem).resolve_left heq)
      · right
        intro hin
        exact habsent (Text.infix_of_infix_replaceAll h hin)

/-- What scrubbing leaves of a text is the text with its secrets replaced. -/
theorem scrubbed_eq (m : Masker) (s : String) : m.policy.scrubbed s = String.ofList (m.replaceSecrets s.toList) := by
  unfold Redaction.Policy.scrubbed policy scrub
  dsimp only
  split
  · next heq =>
    split at heq
    · cases heq
    · exact (Option.some.inj (Except.ok.inj heq)).symm
  · next hnone =>
    split at hnone
    · next heq => exact heq.symm
    · exact absurd rfl (hnone _)

/-- A secret that shares no character with the marker occurs in no text that stands where a leaf was. -/
theorem not_contains_maskedLeaf {m : Masker} (hmarker : m.marker.isEmpty = false) {v : String} (hmem : v ∈ m.secrets)
    (hblank : Text.isBlank v = false) (h : ∀ c ∈ v.toList, c ∉ m.marker.toList) (leaf : List String × Rendered)
    {s : String} (hs : (m.policy.maskedLeaf leaf).2 = .text s) : Text.contains s v = false := by
  have hv := Text.toList_ne_nil_of_not_isBlank hblank
  have hmarker' : m.marker.toList ≠ [] := by
    intro hnil
    rw [String.isEmpty_eq_false_iff] at hmarker
    exact hmarker (String.toList_eq_nil_iff.1 hnil)
  have hapart := Text.Apart.of_disjoint hv hmarker' h
  rw [Bool.eq_false_iff, ne_eq, Text.contains_iff]
  unfold Redaction.Policy.maskedLeaf at hs
  dsimp only at hs
  split at hs
  · cases hs
  split at hs
  · split at hs
    · obtain rfl := Rendered.text.inj hs
      rw [scrubbed_eq, String.toList_ofList]
      exact not_infix_foldl_replaceAll hv hapart _ _
        (.inl ((Sorting.perm_sortBy replacedBefore m.secrets).mem_iff.2 hmem))
    · next hnot => exact absurd hs (hnot s)
  · obtain rfl := Rendered.text.inj hs
    intro hin
    rw [show m.policy.marker.toList = m.marker.toList ++ [] from (List.append_nil _).symm] at hin
    exact hv (List.infix_nil.1 (Text.infix_of_infix_append hapart.2 hin))

end SnapshotLedger.Masker
