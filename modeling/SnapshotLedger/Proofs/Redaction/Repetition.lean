import SnapshotLedger.Proofs.Redaction.Scrubbing

/-!
# Redacting again

What redaction hides behind the marker stays hidden behind it, so only the texts that are shown can change when
redacted fields are redacted again (`Redaction.Policy.applyTo_again_iff`). A text that was scrubbed may still
carry a secret: one that occurs in the marker, or one that a marker and what stands beside it make up. Main
statements: redacting again changes nothing exactly when no text is scrubbed once more, and this is so when no
secret can overlap with the marker (`Masker.redaction_settles_iff`); other secrets may be hidden a second time
(`Masker.redaction_goes_on`).
-/

namespace SnapshotLedger

namespace Redaction.Policy

variable {p : Redaction.Policy}

/-- What is shown of a leaf is the leaf, if scrubbing leaves the texts that are shown and all else is hidden already. -/
theorem maskedLeaf_eq_self_iff {path : List String} {v : Rendered} :
    p.maskedLeaf (path, v) = (path, v) ↔
      (p.Shows path → ∀ s, v = .text s → p.scrubbed s = s) ∧ (¬p.Shows path → v = .null ∨ v = .text p.marker) := by
  by_cases hshows : p.Shows path
  · cases v <;> simp [maskedLeaf, hshows]
  · cases v <;> simp [maskedLeaf, hshows, eq_comm]

/-- Nothing but nulls and the marker is left under a key that hides. -/
theorem maskedLeaf_of_not_shows {leaf : List String × Rendered} (h : ¬p.Shows leaf.1) :
    (p.maskedLeaf leaf).2 = .null ∨ (p.maskedLeaf leaf).2 = .text p.marker := by
  obtain ⟨path, v⟩ := leaf
  cases v <;> simp_all [maskedLeaf]

/-- A text that is shown was a text before it was scrubbed. -/
theorem exists_of_maskedLeaf_eq_text {leaf : List String × Rendered} (hshows : p.Shows leaf.1) {s : String}
    (h : (p.maskedLeaf leaf).2 = .text s) : ∃ t, leaf.2 = .text t ∧ p.scrubbed t = s := by
  obtain ⟨path, v⟩ := leaf
  cases v <;> simp_all [maskedLeaf]

/-- Redacted fields stay as they are when a policy that can decide redacts them again, exactly when it scrubs
none of the texts that are shown in them. -/
theorem applyTo_again_iff {fields r : Fields} (h : p.applyTo fields = .ok r)
    (hdecides : ¬p.FailsOn (Rendered.keysEntries [] r) (Rendered.leavesEntries [] r)) :
    p.applyTo r = .ok r ↔
      ∀ path s, (path, .text s) ∈ Rendered.leavesEntries [] r → p.Shows path → p.scrubbed s = s := by
  have hmasked := leaves_of_applyTo h
  constructor
  · intro hagain path s hmem hshows
    have hsame : (Rendered.leavesEntries [] r).map p.maskedLeaf = (Rendered.leavesEntries [] r).map id := by
      rw [List.map_id, ← leaves_of_applyTo hagain]
    exact (maskedLeaf_eq_self_iff.1 (List.map_inj_left.1 hsame _ hmem)).1 hshows s rfl
  · intro hscrubbed
    obtain ⟨r', hagain⟩ := exists_applyTo hdecides
    have hshape := shape_of_applyTo hagain
    have hleaves := leaves_of_applyTo hagain
    have hkept : ∀ leaf ∈ Rendered.leavesEntries [] r, p.maskedLeaf leaf = id leaf := by
      rintro ⟨path, v⟩ hmem
      refine maskedLeaf_eq_self_iff.2 ⟨?_, ?_⟩
      · rintro hshows s rfl
        exact hscrubbed path s hmem hshows
      · intro hhidden
        -- a leaf of redacted fields is one that was masked, and its path is the same
        rw [hmasked] at hmem
        obtain ⟨leaf, -, hleaf⟩ := List.mem_map.1 hmem
        obtain ⟨rfl, rfl⟩ := Prod.mk.inj hleaf
        exact maskedLeaf_of_not_shows hhidden
    rw [List.map_congr_left hkept, List.map_id] at hleaves
    rw [hagain, Rendered.entries_eq_of_shape_of_leaves hshape hleaves]

end Redaction.Policy

namespace Masker

variable {m : Masker}

/-- A masker can always decide. -/
theorem not_failsOn (m : Masker) (keys : List (List String × String)) (leaves : List (List String × Rendered)) :
    ¬m.policy.FailsOn keys leaves := by
  rintro (⟨place, -, -, e, herror⟩ | ⟨leaf, -, -, s, -, e, herror⟩)
  · cases herror
  · cases herror

/-- Scrubbing leaves the texts that it has nothing to replace in. -/
theorem scrubbed_eq_self_iff {s : String} : m.policy.scrubbed s = s ↔ m.scrub s = none := by
  rw [scrubbed_eq, scrub_eq_none_iff, ← String.toList_inj, String.toList_ofList]

/-- A text that is scrubbed carries a secret. -/
theorem exists_infix_of_scrub {s : String} (h : m.scrub s ≠ none) :
    ∃ secret ∈ m.secrets, secret.toList <:+: s.toList := by
  by_contra hnone
  push Not at hnone
  exact h ((scrub_eq_none_iff m s).2 (replaceSecrets_eq_self hnone))

/-- Replacing secrets again changes nothing where none but the marker itself can overlap with the marker. -/
theorem replaceSecrets_replaceSecrets (hm : m.Sane)
    (hapart : ∀ secret ∈ m.secrets, secret = m.marker ∨ Text.Apart secret.toList m.marker.toList) (s : List Char) :
    m.replaceSecrets (m.replaceSecrets s) = m.replaceSecrets s := by
  apply foldl_replaceAll_eq_self
  intro secret hsorted
  have hsecret : secret ∈ m.secrets := (Sorting.perm_sortBy _ _).mem_iff.1 hsorted
  rcases hapart secret hsecret with rfl | happart
  · exact Text.replaceAll_self hm.marker_ne_nil _
  · exact Text.replaceAll_eq_self (not_infix_replaceSecrets_of_apart hm hsecret happart s)

/-- The patterns of a masker that can be made have characters. -/
theorem Made.not_mem_patterns (h : m.Made) : "" ∉ m.patterns := by
  refine h.invariant (P := fun m => "" ∉ m.patterns) (by decide) ?_ ?_
  · intro names marker m h
    rw [(create_eq_ok h).2.2]
    rintro ⟨name, hname, hempty⟩
    have hfilled := (exists_create_iff.1 ⟨_, h⟩).1 name hname
    rw [Text.isBlank_iff.2 hempty] at hfilled
    cases hfilled
  · intro m secret hm
    rwa [(withSecret_spec m secret).2.1]

/-- What stands under the key without characters is shown. -/
theorem Made.shows_empty (h : m.Made) : m.policy.Shows [""] := by
  intro k hk hhidden
  rw [List.mem_singleton.1 hk] at hhidden
  obtain ⟨pattern, hpattern, hcontains⟩ := List.any_eq_true.1 (Except.ok.inj hhidden)
  rw [Text.contains_iff] at hcontains
  have hempty : pattern.toList = [] := List.infix_nil.1 hcontains
  rw [String.toList_eq_nil_iff] at hempty
  rw [hempty] at hpattern
  exact h.not_mem_patterns hpattern

/-- Redacted fields stay as they are exactly when none of the texts shown in them is scrubbed once more. -/
theorem applyTo_again_iff {fields r : Fields} (h : m.policy.applyTo fields = .ok r) :
    m.policy.applyTo r = .ok r ↔
      ∀ path s, (path, .text s) ∈ Rendered.leavesEntries [] r → m.policy.Shows path → m.scrub s = none := by
  rw [Redaction.Policy.applyTo_again_iff h (not_failsOn m _ _)]
  simp only [scrubbed_eq_self_iff]

/-- Redacted fields stay as they are, whatever they have been, exactly when what was scrubbed is not scrubbed
once more. -/
theorem forall_applyTo_again_iff (hmade : m.Made) :
    (∀ fields r, m.policy.applyTo fields = .ok r → m.policy.applyTo r = .ok r) ↔
      ∀ s, m.scrub (m.policy.scrubbed s) = none := by
  constructor
  · intro hagain s
    obtain ⟨r, h⟩ : ∃ r, m.policy.applyTo [("", .text s)] = .ok r := Redaction.Policy.exists_applyTo (not_failsOn m _ _)
    apply (applyTo_again_iff h).1 (hagain _ _ h) [""] _ _ hmade.shows_empty
    rw [Redaction.Policy.leaves_of_applyTo h]
    simp [Rendered.leavesEntries, Rendered.leaves, Redaction.Policy.maskedLeaf, hmade.shows_empty]
  · intro hscrub fields r h
    rw [applyTo_again_iff h]
    intro path s hmem hshows
    rw [Redaction.Policy.leaves_of_applyTo h] at hmem
    obtain ⟨leaf, -, hleaf⟩ := List.mem_map.1 hmem
    obtain ⟨rfl, htext⟩ := Prod.mk.inj hleaf
    obtain ⟨t, -, rfl⟩ := Redaction.Policy.exists_of_maskedLeaf_eq_text hshows htext
    exact hscrub t

/-- Redacting again changes nothing exactly when nothing is scrubbed again. Redaction by a masker never fails.
What it makes of fields stays as it is when it is redacted again, exactly when none of the texts shown in it is
scrubbed once more; otherwise one of them carries a secret still. So it stays as it is whatever the fields are,
exactly when no text is scrubbed twice; and no text is, when no secret can overlap with the marker, the marker
itself excepted. -/
theorem redaction_settles_iff (hmade : m.Made) :
    (∀ fields, ∃ r, m.policy.applyTo fields = .ok r ∧
      (m.policy.applyTo r = .ok r ↔
        ∀ path s, (path, .text s) ∈ Rendered.leavesEntries [] r → m.policy.Shows path → m.scrub s = none) ∧
      (m.policy.applyTo r ≠ .ok r → ∃ path s, (path, .text s) ∈ Rendered.leavesEntries [] r ∧ m.policy.Shows path ∧
        ∃ secret ∈ m.secrets, secret.toList <:+: s.toList)) ∧
    ((∀ fields r, m.policy.applyTo fields = .ok r → m.policy.applyTo r = .ok r) ↔
      ∀ s, m.scrub (m.policy.scrubbed s) = none) ∧
    ((∀ secret ∈ m.secrets, secret = m.marker ∨ Text.Apart secret.toList m.marker.toList) →
      ∀ fields r, m.policy.applyTo fields = .ok r → m.policy.applyTo r = .ok r) := by
  refine ⟨?_, forall_applyTo_again_iff hmade, ?_⟩
  · intro fields
    obtain ⟨r, h⟩ := Redaction.Policy.exists_applyTo (not_failsOn m (Rendered.keysEntries [] fields) _)
    refine ⟨r, h, applyTo_again_iff h, ?_⟩
    intro hchanged
    rw [ne_eq, applyTo_again_iff h] at hchanged
    push Not at hchanged
    obtain ⟨path, s, hmem, hshows, hscrub⟩ := hchanged
    exact ⟨path, s, hmem, hshows, exists_infix_of_scrub hscrub⟩
  · intro hapart
    rw [forall_applyTo_again_iff hmade]
    intro s
    rw [scrub_eq_none_iff, scrubbed_eq, String.toList_ofList]
    exact replaceSecrets_replaceSecrets hmade.sane hapart s.toList

/-- A secret with a star inside cannot overlap with the marker of three stars, and what hides it is left as it is. -/
theorem redaction_settles_of_inner_star : ∃ m : Masker, m.Made ∧ m.secrets = ["a*b"] ∧
    m.policy.applyTo [("cmd", .text "login a*b"), ("token", .integer 7)] =
      .ok [("cmd", .text "login ***"), ("token", .text "***")] ∧
    m.policy.applyTo [("cmd", .text "login ***"), ("token", .text "***")] =
      .ok [("cmd", .text "login ***"), ("token", .text "***")] := by
  have hsecrets : (Masker.usual.withSecret "a*b").secrets = ["a*b"] := by decide +kernel
  have happly : (Masker.usual.withSecret "a*b").policy.applyTo [("cmd", .text "login a*b"), ("token", .integer 7)] =
      .ok [("cmd", .text "login ***"), ("token", .text "***")] := by rfl
  refine ⟨Masker.usual.withSecret "a*b", .withSecret .usual _, hsecrets, happly, ?_⟩
  apply (redaction_settles_iff (.withSecret .usual _)).2.2 ?_ _ _ happly
  rw [hsecrets, List.forall_mem_singleton]
  right
  change Text.Apart ['a', '*', 'b'] ['*', '*', '*']
  simp [Text.Apart, Text.beginsIn_cons_iff, Text.not_beginsIn_nil]

/-- A secret that is put together by the marker and what stands behind it, and one that is a part of the marker. -/
theorem redaction_goes_on :
    (∃ m : Masker, m.Made ∧ m.secrets = ["*a", "b"] ∧
      m.policy.applyTo [("cmd", .text "ba")] = .ok [("cmd", .text "***a")] ∧
      m.policy.applyTo [("cmd", .text "***a")] = .ok [("cmd", .text "*****")]) ∧
    ∃ m : Masker, m.Made ∧ m.secrets = ["hidden"] ∧
      m.policy.applyTo [("cmd", .text "pw=hidden")] = .ok [("cmd", .text "pw=<hidden>")] ∧
      m.policy.applyTo [("cmd", .text "pw=<hidden>")] = .ok [("cmd", .text "pw=<<hidden>>")] := by
  constructor
  · exact ⟨(Masker.usual.withSecret "*a").withSecret "b", .withSecret (.withSecret .usual _) _,
      by decide +kernel, by rfl, by rfl⟩
  · have hcreate : create ["password"] "<hidden>" = .ok ⟨["password"], [], "<hidden>"⟩ := by rfl
    exact ⟨_, .withSecret (.create hcreate) "hidden", by decide +kernel, by rfl, by rfl⟩

end Masker

end SnapshotLedger
