import SnapshotLedger.Proofs.Redaction.Masker
import SnapshotLedger.Sorting

/-!
# What scrubbing does to a text

Secrets are replaced one after the other, each in what those before it have left. When they share no character
with the marker this comes to replacing stretches of the text itself, none of which overlap (`Masks`): no marker
put in can be part of an occurrence that is found later. Main statement: a masker leaves exactly the texts
without a secret as they are, no secret is left in the others, and a secret by itself becomes the marker
(`scrub_masks`).
-/

namespace SnapshotLedger

/-- A text is another one in which secrets that do not overlap have been replaced by the marker, and all else is
kept in its order. -/
inductive Masks (secrets : List String) (marker : List Char) : List Char → List Char → Prop where
  | nil : Masks secrets marker [] []
  | kept (c : Char) {s t : List Char} (rest : Masks secrets marker s t) : Masks secrets marker (c :: s) (c :: t)
  | hidden {secret : String} (mem : secret ∈ secrets) {s t : List Char} (rest : Masks secrets marker s t) :
    Masks secrets marker (secret.toList ++ s) (marker ++ t)

namespace Masks

variable {secrets : List String} {marker : List Char}

/-- A text may be kept as it is. -/
theorem refl (s : List Char) : Masks secrets marker s s := by
  induction s with
  | nil => exact .nil
  | cons c s ih => exact .kept c ih

/-- What shares no character with the marker and stands at the front has been kept there. -/
theorem of_append {front s t : List Char} (hmarker : marker ≠ []) (hfront : ∀ c ∈ front, c ∉ marker)
    (h : Masks secrets marker s (front ++ t)) : ∃ r, s = front ++ r ∧ Masks secrets marker r t := by
  induction front generalizing s with
  | nil => exact ⟨s, rfl, h⟩
  | cons c front ih =>
    rw [List.cons_append] at h
    generalize hw : c :: (front ++ t) = w at h
    cases h with
    | nil => cases hw
    | kept d rest =>
      obtain ⟨rfl, rfl⟩ := List.cons.inj hw
      obtain ⟨r, rfl, hr⟩ := ih (fun b hb => hfront b (List.mem_cons_of_mem _ hb)) rest
      exact ⟨r, rfl, hr⟩
    | hidden mem rest =>
      obtain ⟨d, marker, rfl⟩ := List.exists_cons_of_ne_nil hmarker
      obtain ⟨rfl, -⟩ := List.cons.inj hw
      exact absurd List.mem_cons_self (hfront c List.mem_cons_self)

/-- Replacing one more secret in what is left replaces it in the text itself, wherever no other one has been
replaced. -/
theorem replaceAll {secret : String} (hmem : secret ∈ secrets) (hsecret : secret.toList ≠ []) (hmarker : marker ≠ [])
    (hdisjoint : ∀ c ∈ secret.toList, c ∉ marker) {s t : List Char} (h : Masks secrets marker s t) :
    Masks secrets marker s (Text.replaceAll secret.toList marker t) := by
  -- An occurrence takes up several steps of the derivation, so the induction is on the length of what is left.
  induction hlength : t.length using Nat.strongRecOn generalizing s t with
  | ind n ih =>
    subst hlength
    by_cases hfront : secret.toList <+: t
    · obtain ⟨t, rfl⟩ := hfront
      obtain ⟨r, rfl, hr⟩ := h.of_append hmarker hdisjoint
      have hpos : 0 < secret.toList.length := List.length_pos_iff.2 hsecret
      rw [Text.replaceAll_append hsecret]
      exact .hidden hmem (ih t.length (by rw [List.length_append]; omega) hr rfl)
    · cases h with
      | nil => exact .nil
      | kept c rest =>
        rw [Text.replaceAll_cons hfront]
        exact .kept c (ih _ (by simp) rest rfl)
      | @hidden other mem s t rest =>
        have hpos : 0 < marker.length := List.length_pos_iff.2 hmarker
        rw [Text.replaceAll_append_of_disjoint hsecret hdisjoint]
        exact .hidden mem (ih t.length (by rw [List.length_append]; omega) rest rfl)

end Masks

namespace Masker

/-! ## Maskers that can be made -/

/-- The masker is the usual one or one for some names and a marker, and may have been given secrets and
variables since. -/
inductive Made : Masker → Prop where
  | usual : Made usual
  | create {names : List String} {marker : String} {m : Masker} (h : create names marker = .ok m) : Made m
  | withSecret {m : Masker} (made : Made m) (secret : String) : Made (m.withSecret secret)
  | withVariables {m : Masker} (made : Made m) (entries : List (String × String)) : Made (m.withVariables entries).1

/-- What holds of maskers that were just made, and is kept by one more secret, holds of every masker that can be
made. -/
theorem Made.invariant {P : Masker → Prop} {m : Masker} (made : m.Made) (husual : P Masker.usual)
    (hcreate : ∀ names marker m, Masker.create names marker = .ok m → P m)
    (hsecret : ∀ m secret, P m → P (m.withSecret secret)) : P m := by
  induction made with
  | usual => exact husual
  | create h => exact hcreate _ _ _ h
  | withSecret _ secret ih => exact hsecret _ secret ih
  | withVariables _ entries ih => exact List.foldlRecOn _ _ ih fun m hm e _ => hsecret m e.2 hm

/-- The marker is not empty, and no secret is blank. -/
structure Sane (m : Masker) : Prop where
  marker : m.marker ≠ ""
  secrets : ∀ s ∈ m.secrets, Text.isBlank s = false

/-- A masker that was just made is sane. -/
theorem sane_create {names : List String} {marker : String} {m : Masker} (h : create names marker = .ok m) :
    m.Sane := by
  obtain ⟨hmarker, hfilled, -⟩ := create_eq_ok h
  refine ⟨?_, fun s hs => ?_⟩
  · rw [hmarker]
    exact String.isEmpty_eq_false_iff.1 hfilled
  · rw [secrets_of_create h] at hs
    exact absurd hs List.not_mem_nil

/-- One more secret leaves a masker sane. -/
theorem Sane.withSecret {m : Masker} (h : m.Sane) (secret : String) : (m.withSecret secret).Sane := by
  unfold Masker.withSecret
  split
  · exact h
  · next hblank =>
    refine ⟨h.marker, fun s hs => ?_⟩
    rcases mem_insertSecret.1 hs with rfl | hs
    · exact Bool.eq_false_iff.2 hblank
    · exact h.secrets s hs

/-- Every masker that can be made is sane. -/
theorem Made.sane {m : Masker} (h : m.Made) : m.Sane :=
  h.invariant ⟨by decide, fun _ hs => absurd hs List.not_mem_nil⟩ (fun _ _ _ => sane_create) fun _ secret hm =>
    hm.withSecret secret

/-! ## The order of replacing -/

/-- Of two secrets one may be replaced before the other. -/
theorem replacedBefore_total (s t : String) : replacedBefore s t = true ∨ replacedBefore t s = true := by
  have htext := String.le_total s t
  simp only [replacedBefore, Bool.or_eq_true, Bool.and_eq_true, decide_eq_true_eq]
  rcases Nat.lt_trichotomy (Text.utf8Length s.toList) (Text.utf8Length t.toList) with h | h | h
  · exact .inr (.inl h)
  · exact htext.imp (fun hle => .inr ⟨h, hle⟩) fun hle => .inr ⟨h.symm, hle⟩
  · exact .inl (.inl h)

/-- The order of replacing is transitive. -/
theorem replacedBefore_trans (s t u : String) (hst : replacedBefore s t = true) (htu : replacedBefore t u = true) :
    replacedBefore s u = true := by
  simp only [replacedBefore, Bool.or_eq_true, Bool.and_eq_true, decide_eq_true_eq] at hst htu ⊢
  rcases hst with hst | ⟨hst, hle⟩ <;> rcases htu with htu | ⟨htu, hle'⟩
  · exact .inl (by omega)
  · exact .inl (by omega)
  · exact .inl (by omega)
  · exact .inr ⟨by omega, String.le_trans hle hle'⟩

/-- A secret does not occur in those that are replaced behind it, itself excepted. -/
theorem not_infix_of_replacedBefore {s t : String} (h : replacedBefore s t = true) (hne : s ≠ t) :
    ¬s.toList <:+: t.toList := by
  intro hoccurs
  have hlt := Text.utf8Length_lt_of_infix hoccurs fun heq => hne (String.toList_inj.1 heq)
  simp only [replacedBefore, Bool.or_eq_true, Bool.and_eq_true, decide_eq_true_eq] at h
  omega

/-! ## Replacing secrets one after the other -/

/-- A text in which no secret is replaced by something else stays as it is. -/
theorem foldl_replaceAll_eq_self {marker s : List Char} {secrets : List String}
    (h : ∀ secret ∈ secrets, Text.replaceAll secret.toList marker s = s) :
    secrets.foldl (fun s secret => Text.replaceAll secret.toList marker s) s = s := by
  induction secrets with
  | nil => rfl
  | cons secret secrets ih =>
    obtain ⟨hfirst, hrest⟩ := List.forall_mem_cons.1 h
    rw [List.foldl_cons, hfirst, ih hrest]

/-- Secrets that share no character with the marker occur in it nowhere. -/
theorem not_infix_marker {secret marker : List Char} (hsecret : secret ≠ []) (h : ∀ c ∈ secret, c ∉ marker) :
    ¬secret <:+: marker := by
  intro hoccurs
  obtain ⟨c, r, rfl⟩ := List.exists_cons_of_ne_nil hsecret
  exact h c List.mem_cons_self (hoccurs.subset List.mem_cons_self)

/-- No secret shares a character with the marker. -/
def Separate (m : Masker) : Prop := ∀ s ∈ m.secrets, ∀ c ∈ s.toList, c ∉ m.marker.toList

section Separate

variable {m : Masker} (hm : m.Sane) (hseparate : m.Separate)

include hm

/-- The marker has characters. -/
theorem Sane.marker_ne_nil : m.marker.toList ≠ [] := fun h => hm.marker (String.toList_eq_nil_iff.1 h)

/-- Secrets have characters. -/
theorem Sane.secret_ne_nil {s : String} (hs : s ∈ m.secrets) : s.toList ≠ [] :=
  Text.toList_ne_nil_of_not_isBlank (hm.secrets s hs)

/-- A secret that cannot overlap with the marker is left in no text. -/
theorem not_infix_replaceSecrets_of_apart {secret : String} (hsecret : secret ∈ m.secrets)
    (hapart : Text.Apart secret.toList m.marker.toList) (s : List Char) : ¬secret.toList <:+: m.replaceSecrets s :=
  not_infix_foldl_replaceAll (hm.secret_ne_nil hsecret) hapart _ s (.inl ((Sorting.perm_sortBy _ _).mem_iff.2 hsecret))

include hseparate

/-- What replacing leaves of a text is the text with some secrets replaced in it. -/
theorem masks_replaceSecrets (s : List Char) : Masks m.secrets m.marker.toList s (m.replaceSecrets s) := by
  have hfold : ∀ (l : List String) (t : List Char), (∀ secret ∈ l, secret ∈ m.secrets) →
    Masks m.secrets m.marker.toList s t →
      Masks m.secrets m.marker.toList s
        (l.foldl (fun s secret => Text.replaceAll secret.toList m.marker.toList s) t) := by
    intro l
    induction l with
    | nil => exact fun _ _ h => h
    | cons secret l ih =>
      intro t hl h
      obtain ⟨hfirst, hrest⟩ := List.forall_mem_cons.1 hl
      exact ih _ hrest (h.replaceAll hfirst (hm.secret_ne_nil hfirst) hm.marker_ne_nil (hseparate secret hfirst))
  exact hfold _ s (fun _ hs => (Sorting.perm_sortBy _ _).mem_iff.1 hs) (.refl s)

/-- No secret is left in a text. -/
theorem not_infix_replaceSecrets (s : List Char) : ∀ secret ∈ m.secrets, ¬secret.toList <:+: m.replaceSecrets s := by
  intro secret hsecret
  have hapart := Text.Apart.of_disjoint (hm.secret_ne_nil hsecret) hm.marker_ne_nil (hseparate secret hsecret)
  exact not_infix_replaceSecrets_of_apart hm hsecret hapart s

/-- A secret by itself is replaced by the marker: no secret replaced before it occurs in it, and none occurs in
the marker. -/
theorem replaceSecrets_secret {secret : String} (hsecret : secret ∈ m.secrets) :
    m.replaceSecrets secret.toList = m.marker.toList := by
  have hsorted := Sorting.pairwise_sortBy replacedBefore_total replacedBefore_trans m.secrets
  have hmem : ∀ {s}, s ∈ Sorting.sortBy replacedBefore m.secrets ↔ s ∈ m.secrets := (Sorting.perm_sortBy _ _).mem_iff
  obtain ⟨front, back, hsplit, hfirst⟩ := List.eq_append_cons_of_mem (hmem.2 hsecret)
  have hfront : ∀ s ∈ front, Text.replaceAll s.toList m.marker.toList secret.toList = secret.toList := by
    intro s hs
    rw [hsplit, List.pairwise_append] at hsorted
    refine Text.replaceAll_eq_self (not_infix_of_replacedBefore (hsorted.2.2 s hs secret List.mem_cons_self) ?_)
    rintro rfl
    exact hfirst hs
  have hback : ∀ s ∈ back, Text.replaceAll s.toList m.marker.toList m.marker.toList = m.marker.toList := by
    intro s hs
    have hin : s ∈ m.secrets := by
      rw [← hmem, hsplit]
      exact List.mem_append_right _ (List.mem_cons_of_mem _ hs)
    exact Text.replaceAll_eq_self (not_infix_marker (hm.secret_ne_nil hin) (hseparate s hin))
  have hwhole : Text.replaceAll secret.toList m.marker.toList secret.toList = m.marker.toList := by
    have happend : Text.replaceAll secret.toList m.marker.toList (secret.toList ++ []) =
        m.marker.toList ++ Text.replaceAll secret.toList m.marker.toList [] :=
          Text.replaceAll_append (hm.secret_ne_nil hsecret) []
    simpa [Text.replaceAll, Text.replaceFrom] using happend
  rw [replaceSecrets, hsplit, List.foldl_append, foldl_replaceAll_eq_self hfront, List.foldl_cons, hwhole,
    foldl_replaceAll_eq_self hback]

end Separate

/-- A text without secrets is left as it is. -/
theorem replaceSecrets_eq_self {m : Masker} {s : List Char} (h : ∀ secret ∈ m.secrets, ¬secret.toList <:+: s) :
    m.replaceSecrets s = s :=
  foldl_replaceAll_eq_self fun secret hs => Text.replaceAll_eq_self (h secret ((Sorting.perm_sortBy _ _).mem_iff.1 hs))

/-- A text is scrubbed exactly when replacing its secrets changes it. -/
theorem scrub_eq_none_iff (m : Masker) (s : String) : m.scrub s = none ↔ m.replaceSecrets s.toList = s.toList := by
  simp only [scrub, ite_eq_left_iff, reduceCtorEq, imp_false, not_not, ← String.toList_inj, String.toList_ofList]

/-- What a text is scrubbed to is what replacing its secrets leaves. -/
theorem toList_of_scrub {m : Masker} {s t : String} (h : m.scrub s = some t) :
    t.toList = m.replaceSecrets s.toList := by
  unfold scrub at h
  dsimp only at h
  split at h
  · cases h
  · rw [← Option.some.inj h, String.toList_ofList]

/-- Scrubbing is sound, complete and minimal. A masker whose secrets share no character with its marker leaves a
text as it is exactly when no secret occurs in it. Otherwise no secret is left in what it makes of the text, and
that is the text with secrets that do not overlap replaced by one marker each, all else being kept in its order.
A secret by itself becomes the marker. -/
theorem scrub_masks {m : Masker} (hmade : m.Made) (hseparate : m.Separate) (s : String) :
    (m.scrub s = none ↔ ∀ secret ∈ m.secrets, ¬secret.toList <:+: s.toList) ∧
      (∀ t, m.scrub s = some t → (∀ secret ∈ m.secrets, ¬secret.toList <:+: t.toList) ∧
        Masks m.secrets m.marker.toList s.toList t.toList) ∧
      (s ∈ m.secrets → m.scrub s = some m.marker) := by
  have hm := hmade.sane
  have habsent := not_infix_replaceSecrets hm hseparate s.toList
  have hnone : m.scrub s = none ↔ ∀ secret ∈ m.secrets, ¬secret.toList <:+: s.toList := by
    rw [scrub_eq_none_iff]
    refine ⟨fun heq => ?_, replaceSecrets_eq_self⟩
    rw [heq] at habsent
    exact habsent
  refine ⟨hnone, fun t ht => ?_, fun hs => ?_⟩
  · rw [toList_of_scrub ht]
    exact ⟨habsent, masks_replaceSecrets hm hseparate s.toList⟩
  · cases hscrub : m.scrub s with
    | none => exact absurd (List.infix_refl _) (hnone.1 hscrub s hs)
    | some t => rw [← String.toList_inj.1 ((toList_of_scrub hscrub).trans (replaceSecrets_secret hm hseparate hs))]

/-- Two secrets that overlap in a text: the longer one is replaced, and what is left of the shorter one is kept. -/
theorem scrub_masks_of_overlapping : ∃ m : Masker, m.Made ∧ m.Separate ∧ m.secrets = ["abc", "cd"] ∧
    m.scrub "xabcd cd" = some "x***d ***" ∧ Masks m.secrets m.marker.toList "xabcd cd".toList "x***d ***".toList ∧
    m.scrub "cd" = some "***" ∧ m.scrub "xd" = none := by
  have hmade : ((Masker.usual.withSecret "cd").withSecret "abc").Made := (Made.usual.withSecret "cd").withSecret "abc"
  have hsecrets : ((Masker.usual.withSecret "cd").withSecret "abc").secrets = ["abc", "cd"] := by decide +kernel
  have hmarker : ((Masker.usual.withSecret "cd").withSecret "abc").marker = "***" :=
    (withSecret_spec _ _).1.trans (withSecret_spec _ _).1
  have hseparate : ((Masker.usual.withSecret "cd").withSecret "abc").Separate := by
    rw [Separate, hsecrets, hmarker]
    simp
  have hscrub : ((Masker.usual.withSecret "cd").withSecret "abc").scrub "xabcd cd" =
      some "x***d ***" := by decide +kernel
  have hnone :
      ∀ secret ∈ ((Masker.usual.withSecret "cd").withSecret "abc").secrets, ¬secret.toList <:+: "xd".toList := by
    simp only [hsecrets, List.forall_mem_cons, List.not_mem_nil, false_implies, implies_true, and_true]
    exact ⟨by decide, by decide⟩
  have hmem : "cd" ∈ ((Masker.usual.withSecret "cd").withSecret "abc").secrets := by simp [hsecrets]
  have halone := (scrub_masks hmade hseparate "cd").2.2 hmem
  rw [hmarker] at halone
  exact ⟨_, hmade, hseparate, hsecrets, hscrub, ((scrub_masks hmade hseparate _).2.1 _ hscrub).2, halone,
    (scrub_masks hmade hseparate "xd").1.2 hnone⟩

end Masker

end SnapshotLedger
