import Mathlib.Data.Finset.Card
import SnapshotLedger.Proofs.Redaction.Scrubbing

/-!
# Registering variables

A masker that is given variables takes the values of those with sensitive names that are not blank (`brought`),
and reports how many it has taken. Its secrets are kept in order, each of them once (`Made.pairwise_secrets`),
so a value that is brought twice, or is a secret already, adds none although it is counted. Main statement: the
report is the number of secrets added exactly when the values are new and all different, and otherwise it is too
great (`report_exact_iff_new`).
-/

namespace SnapshotLedger.Masker

variable {m : Masker}

/-! ## Each secret once -/

/-- A secret is put into its place. -/
theorem pairwise_insertSecret (secret : String) {secrets : List String} (h : secrets.Pairwise (· < ·)) :
    (insertSecret secret secrets).Pairwise (· < ·) := by
  induction secrets with
  | nil => exact List.pairwise_singleton _ _
  | cons s secrets ih =>
    obtain ⟨hfirst, hrest⟩ := List.pairwise_cons.1 h
    unfold insertSecret
    split
    · next hlt =>
      refine List.pairwise_cons.2 ⟨?_, h⟩
      intro t ht
      rcases List.mem_cons.1 ht with rfl | ht
      · exact hlt
      · exact String.lt_trans hlt (hfirst t ht)
    split
    · exact h
    · next hlt hne =>
      refine List.pairwise_cons.2 ⟨?_, ih hrest⟩
      intro t ht
      rcases mem_insertSecret.1 ht with rfl | ht
      · exact Entries.lt_of_not_lt_of_ne hlt hne
      · exact hfirst t ht

/-- One more secret leaves the secrets in order. -/
theorem pairwise_withSecret (h : m.secrets.Pairwise (· < ·)) (secret : String) :
    (m.withSecret secret).secrets.Pairwise (· < ·) := by
  unfold withSecret
  split
  · exact h
  · exact pairwise_insertSecret secret h

/-- The secrets of a masker that can be made are in order. -/
theorem Made.pairwise_secrets (h : m.Made) : m.secrets.Pairwise (· < ·) := by
  refine h.invariant (P := fun m => m.secrets.Pairwise (· < ·)) List.Pairwise.nil ?_ ?_
  · intro names marker m h
    rw [secrets_of_create h]
    exact List.Pairwise.nil
  · intro m secret hm
    exact pairwise_withSecret hm secret

/-- Each secret of a masker that can be made is there once. -/
theorem Made.nodup_secrets (h : m.Made) : m.secrets.Nodup := by
  refine h.pairwise_secrets.imp ?_
  rintro s t hlt rfl
  exact String.lt_irrefl s hlt

/-! ## What is added and what is reported -/

/-- The values that variables bring in, in their order: of those with sensitive names, and none that is blank. -/
def brought (m : Masker) (entries : List (String × String)) : List String :=
  (entries.filter m.isSecretVariable).map Prod.snd

/-- What is brought in is the value of a variable with a sensitive name. -/
theorem mem_brought {entries : List (String × String)} {value : String} :
    value ∈ m.brought entries ↔ ∃ name, (name, value) ∈ entries ∧ m.isSensitive name = true ∧
      Text.isBlank value = false := by
  simp [brought, isSecretVariable]

/-- It is reported how many values were brought in, repeated ones included. -/
theorem report_eq (m : Masker) (entries : List (String × String)) :
    (m.withVariables entries).2 = (m.brought entries).length := by
  rw [brought, List.length_map]
  rfl

/-- The secrets are those before and what was brought in. -/
theorem toFinset_secrets_withVariables (m : Masker) (entries : List (String × String)) :
    (m.withVariables entries).1.secrets.toFinset = (m.brought entries).toFinset ∪ m.secrets.toFinset := by
  ext value
  rw [Finset.mem_union, List.mem_toFinset, List.mem_toFinset, List.mem_toFinset, mem_secrets_withVariables_iff,
    mem_brought, or_comm]

/-- The secrets become more by what was brought in and is new, each value counted once. -/
theorem length_secrets_withVariables (hmade : m.Made) (entries : List (String × String)) :
    (m.withVariables entries).1.secrets.length =
      ((m.brought entries).toFinset \ m.secrets.toFinset).card + m.secrets.length := by
  rw [← List.toFinset_card_of_nodup (hmade.withVariables entries).nodup_secrets,
    ← List.toFinset_card_of_nodup hmade.nodup_secrets, toFinset_secrets_withVariables, Finset.card_sdiff_add_card]

/-- Of the values in a list as many are new as it is long, exactly when they are all new and no two are the same. -/
theorem card_sdiff_eq_length_iff {values : List String} {known : Finset String} :
    (values.toFinset \ known).card = values.length ↔ values.Nodup ∧ ∀ value ∈ values, value ∉ known := by
  have hnew : (values.toFinset \ known).card ≤ values.toFinset.card := Finset.card_le_card Finset.sdiff_subset
  have hdistinct : values.toFinset.card ≤ values.length := values.toFinset_card_le
  constructor
  · intro h
    rw [h] at hnew
    have hnodup : values.Nodup := Multiset.toFinset_card_eq_card_iff_nodup.1 (Nat.le_antisymm hdistinct hnew)
    have hall : values.toFinset \ known = values.toFinset :=
      Finset.eq_of_subset_of_card_le Finset.sdiff_subset (h ▸ hdistinct)
    refine ⟨hnodup, fun value hvalue => ?_⟩
    rw [← List.mem_toFinset, ← hall] at hvalue
    exact (Finset.mem_sdiff.1 hvalue).2
  · rintro ⟨hnodup, hall⟩
    have hdisjoint : Disjoint values.toFinset known := by
      rw [Finset.disjoint_left]
      intro value hvalue
      exact hall value (List.mem_toFinset.1 hvalue)
    rw [Finset.sdiff_eq_self_of_disjoint hdisjoint, List.toFinset_card_of_nodup hnodup]

/-- What is reported is what is added exactly when all of it is new. A masker that can be made and is given
variables has as secrets those it had and the values of the variables with sensitive names that are not blank.
The secrets become more by the number of different values that were no secrets. That is never more than the
number reported, and it is this number exactly when no two of the values are the same and none was a secret. -/
theorem report_exact_iff_new (hmade : m.Made) (entries : List (String × String)) :
    (∀ value, value ∈ (m.withVariables entries).1.secrets ↔
      value ∈ m.secrets ∨ ∃ name, (name, value) ∈ entries ∧ m.isSensitive name = true ∧ Text.isBlank value = false) ∧
    (m.withVariables entries).1.secrets.length =
      ((m.brought entries).toFinset \ m.secrets.toFinset).card + m.secrets.length ∧
    (m.withVariables entries).1.secrets.length ≤ (m.withVariables entries).2 + m.secrets.length ∧
    ((m.withVariables entries).2 = (m.withVariables entries).1.secrets.length - m.secrets.length ↔
      (m.brought entries).Nodup ∧ ∀ value ∈ m.brought entries, value ∉ m.secrets) := by
  have hlength := length_secrets_withVariables hmade entries
  have hreport := report_eq m entries
  have hnew : ((m.brought entries).toFinset \ m.secrets.toFinset).card ≤ (m.brought entries).length :=
    (Finset.card_le_card Finset.sdiff_subset).trans (List.toFinset_card_le _)
  refine ⟨fun value => mem_secrets_withVariables_iff, hlength, by omega, ?_⟩
  rw [hlength, Nat.add_sub_cancel, hreport, eq_comm, card_sdiff_eq_length_iff]
  simp only [List.mem_toFinset]

/-- Two new values and a blank one are given to a masker that has a secret, with a variable whose name is not
sensitive. -/
theorem report_exact_of_two_new : ∃ m : Masker, m.Made ∧ m.secrets = ["n"] ∧
    m.withVariables [("api_key", "z"), ("region", "eu"), ("TOKEN", "a"), ("password", " ")] =
      ({ m with secrets := ["a", "n", "z"] }, 2) ∧
    (m.brought [("api_key", "z"), ("region", "eu"), ("TOKEN", "a"), ("password", " ")]).Nodup := by
  have hmade : (Masker.usual.withSecret "n").Made := .withSecret .usual "n"
  have hgiven : (Masker.usual.withSecret "n").withVariables
      [("api_key", "z"), ("region", "eu"), ("TOKEN", "a"), ("password", " ")] =
        ({ Masker.usual.withSecret "n" with secrets := ["a", "n", "z"] }, 2) := by decide +kernel
  have hexact :=
    (report_exact_iff_new hmade [("api_key", "z"), ("region", "eu"), ("TOKEN", "a"), ("password", " ")]).2.2.2
  rw [hgiven] at hexact
  exact ⟨_, hmade, by decide +kernel, hgiven, (hexact.1 (by decide +kernel)).1⟩

/-- A value that is brought twice is reported twice, and one that is a secret already is reported once; but the
one is added once and the other not at all. -/
theorem report_exceeds_repeated : Masker.usual.secrets = [] ∧
    Masker.usual.withVariables [("api_key", "s"), ("token", "s")] = ({ Masker.usual with secrets := ["s"] }, 2) ∧
    ∃ m : Masker, m.Made ∧ m.secrets = ["s"] ∧ m.withVariables [("token", "s")] = (m, 1) :=
  ⟨rfl, by decide +kernel, Masker.usual.withSecret "s", .withSecret .usual "s", by decide +kernel, by decide +kernel⟩

end SnapshotLedger.Masker
