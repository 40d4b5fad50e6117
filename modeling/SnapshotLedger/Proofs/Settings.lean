import SnapshotLedger.Proofs.Redaction.Masker
import SnapshotLedger.Proofs.Text.Case

/-!
# Settings and their masker

Settings can be used exactly when they leave room for one level and a masker can be made of them
(`validate_eq_ok_iff`). What is under a key is hidden when a sensitive name, without the blanks around it,
occurs in the key, whatever the case of the letters of either (`hides_iff`). So it does not matter in which
order the names are given, how often, with which blanks around them or in which case (`Respelled`,
`validate_iff_masker`).
-/

namespace SnapshotLedger

/-! ## Names that stand for the same patterns -/

/-- Names in place of others from which they differ in order, number, blanks around them and case alone. -/
inductive Respelled : List String → List String → Prop where
  | reordered {names others : List String} (h : names.Perm others) : Respelled names others
  | repeated {name : String} {names : List String} (h : name ∈ names) : Respelled names (name :: names)
  | padded {name left right : String} {names : List String} (hleft : ∀ c ∈ left.toList, Text.isBlankChar c = true)
    (hright : ∀ c ∈ right.toList, Text.isBlankChar c = true) : Respelled (name :: names)
      ((left ++ name ++ right) :: names)
  | recased {name other : String} {names : List String} (h : Text.lower name = Text.lower other) :
    Respelled (name :: names) (other :: names)
  | symm {names others : List String} (h : Respelled names others) : Respelled others names
  | trans {names others more : List String} (h : Respelled names others)
      (h' : Respelled others more) : Respelled names more

/-- Names in place of others stand for the same patterns. -/
theorem Respelled.patterns_iff {names others : List String} (h : Respelled names others) (pattern : String) :
    (∃ name ∈ names, Text.lower (Text.trim name) = pattern) ↔
      ∃ name ∈ others, Text.lower (Text.trim name) = pattern := by
  induction h with
  | reordered h => simp only [h.mem_iff]
  | repeated hname =>
    rw [List.exists_mem_cons_iff, or_iff_right_of_imp]
    intro hpattern
    exact ⟨_, hname, hpattern⟩
  | padded hleft hright => rw [List.exists_mem_cons_iff, List.exists_mem_cons_iff, Text.trim_pad hleft hright]
  | recased hcase => rw [List.exists_mem_cons_iff, List.exists_mem_cons_iff, Text.lower_trim, Text.lower_trim, hcase]
  | symm _ ih => exact ih.symm
  | trans _ _ ih ih' => exact ih.trans ih'

namespace Settings

variable {s : Settings}

/-- None of the names is blank when none of them stands for a pattern without characters. -/
theorem forall_not_isBlank_iff {names : List String} : (∀ name ∈ names, Text.isBlank name = false) ↔
    ¬∃ name ∈ names, Text.lower (Text.trim name) = "" := by
  simp only [← Text.isBlank_iff, not_exists, not_and, Bool.not_eq_true]

/-- A masker can be made of settings without a blank name and with a marker. -/
theorem exists_ofSettings_iff : (∃ m, Masker.ofSettings s = .ok m) ↔
    (∀ name ∈ s.sensitiveNames, Text.isBlank name = false) ∧ s.marker.isEmpty = false :=
  Masker.exists_create_iff

/-- Settings can be used when they leave room for one level and a masker can be made of them. -/
theorem validate_eq_ok_iff : s.validate = .ok () ↔ 1 ≤ s.depthLimit ∧ ∃ m, Masker.ofSettings s = .ok m := by
  rw [exists_ofSettings_iff, validate, Nat.one_le_iff_ne_zero]
  have hnames : (∀ name ∈ s.sensitiveNames, Text.isBlank name = false) ↔ ¬s.sensitiveNames.any Text.isBlank = true := by
    simp only [List.any_eq_true, not_exists, not_and, Bool.not_eq_true]
  rw [hnames]
  split
  · next hzero => exact ⟨nofun, fun h => absurd hzero h.1⟩
  split
  · next hblank => exact ⟨nofun, fun h => absurd hblank h.2.1⟩
  split
  · next hempty =>
    rw [hempty]
    exact ⟨nofun, fun h => nomatch h.2.2⟩
  · next hdepth hblank hempty => exact ⟨fun _ => ⟨hdepth, hblank, Bool.eq_false_iff.2 hempty⟩, fun _ => rfl⟩

/-- What is under a key is hidden when one of the sensitive names, without the blanks around it, occurs in the
key, whatever their case. -/
theorem hides_iff {m : Masker} (h : Masker.ofSettings s = .ok m) (key : String) : m.isSensitive key = true ↔
    ∃ name ∈ s.sensitiveNames, (Text.lower (Text.trim name)).toList <:+: (Text.lower key).toList := by
  rw [Masker.isSensitive, List.any_eq_true]
  simp only [(Masker.create_eq_ok h).2.2, Text.contains_iff]
  constructor
  · rintro ⟨pattern, ⟨name, hname, rfl⟩, hin⟩
    exact ⟨name, hname, hin⟩
  · rintro ⟨name, hname, hin⟩
    exact ⟨_, ⟨name, hname, rfl⟩, hin⟩

/-- Of names in place of others a masker can be made that hides the same. -/
theorem exists_masker_of_respelled {m : Masker} (h : Masker.ofSettings s = .ok m) {names : List String}
    (hnames : Respelled s.sensitiveNames names) : ∃ m', Masker.ofSettings { s with sensitiveNames := names } = .ok m' ∧
      ∀ key key', Text.lower key = Text.lower key' → m'.isSensitive key' = m.isSensitive key := by
  obtain ⟨hfilled, hmarker⟩ := exists_ofSettings_iff.1 ⟨m, h⟩
  rw [forall_not_isBlank_iff, hnames.patterns_iff, ← forall_not_isBlank_iff] at hfilled
  obtain ⟨m', h'⟩ := (exists_ofSettings_iff (s := { s with sensitiveNames := names })).2 ⟨hfilled, hmarker⟩
  refine ⟨m', h', fun key key' hkey => ?_⟩
  have hpattern : ∀ pattern, pattern ∈ m'.patterns ↔ pattern ∈ m.patterns := by
    intro pattern
    rw [(Masker.create_eq_ok h').2.2, (Masker.create_eq_ok h).2.2, hnames.patterns_iff]
  rw [Masker.isSensitive, Masker.isSensitive, hkey, Bool.eq_iff_iff]
  simp only [List.any_eq_true, hpattern]

/-- Settings and masker agree on what can be used, and names are matched without regard to order, number, blanks
around them or case. Settings can be used exactly when they leave room for one level and a masker can be made of
them. The masker then decides about every key, and it hides what is under a key exactly when one of the
sensitive names, without the blanks around it, occurs in the key where both are in lower case. Of the settings
with other names, which differ in order, number, blanks around them and case alone, a masker can be made as
well, and it decides in the same way about every key that differs in case alone. -/
theorem validate_iff_masker (s : Settings) :
    (s.validate = .ok () ↔ 1 ≤ s.depthLimit ∧ ∃ m, Masker.ofSettings s = .ok m) ∧
      ∀ m, Masker.ofSettings s = .ok m →
        (∀ key, ∃ hidden, m.policy.hides key = .ok hidden ∧ (hidden = true ↔
          ∃ name ∈ s.sensitiveNames, (Text.lower (Text.trim name)).toList <:+: (Text.lower key).toList)) ∧
        ∀ names, Respelled s.sensitiveNames names →
        ∃ m', Masker.ofSettings { s with sensitiveNames := names } = .ok m' ∧
          ∀ key key', Text.lower key = Text.lower key' → m'.policy.hides key' = m.policy.hides key := by
  refine ⟨validate_eq_ok_iff, fun m h => ⟨fun key => ⟨_, rfl, hides_iff h key⟩, fun names hnames => ?_⟩⟩
  obtain ⟨m', h', hsame⟩ := exists_masker_of_respelled h hnames
  exact ⟨m', h', fun key key' hkey => congrArg Except.ok (hsame key key' hkey)⟩

/-- Names in other cases, with blanks around them and repeated hide the same. -/
example : (Masker.ofSettings { sensitiveNames := [" Token\n", "token"] }).map (·.isSensitive "api_TOKEN_id") =
    .ok true := by
  decide +kernel

end Settings

end SnapshotLedger
