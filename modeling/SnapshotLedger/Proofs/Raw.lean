import SnapshotLedger.Proofs.Answers
import SnapshotLedger.Proofs.Entries
import SnapshotLedger.Raw.Decode

/-!
# The integers of field values

An integer that does not fit in a signed word becomes a binary number when a value is read from JSON, so that
all integers of values and of owners that were read are signed words (`signed_ofJson`,
`signed_descriptorOfJson`).
-/

namespace SnapshotLedger.Raw

mutual

/-- The integers in the value. -/
def integers : Raw → List Int
  | integer n => [n]
  | sequence vs => integersItems vs
  | mapping es => integersEntries es
  | object _ _ _ es => integersEntries es
  | null | bool _ | float _ | text _ | date _ | timestamp _ => []

/-- The integers in items. -/
def integersItems : List Raw → List Int
  | [] => []
  | v :: vs => integers v ++ integersItems vs

/-- The integers in the values of entries. -/
def integersEntries : List (String × Raw) → List Int
  | [] => []
  | (_, v) :: es => integers v ++ integersEntries es

end

/-- The integers in items are those in each of them. -/
theorem mem_integersItems {vs : List Raw} {n : Int} : n ∈ integersItems vs ↔ ∃ v ∈ vs, n ∈ v.integers :=
  mem_appended_iff rfl fun _ _ => rfl

/-- The integers in entries are those in their values. -/
theorem mem_integersEntries {es : List (String × Raw)} {n : Int} :
    n ∈ integersEntries es ↔ ∃ e ∈ es, n ∈ e.2.integers :=
  mem_appended_iff rfl fun _ _ => rfl

/-- All integers in the value are signed words. -/
def Signed (v : Raw) : Prop := ∀ n ∈ v.integers, Json.fitsSigned n = true

/-- A value without integers has none that is no signed word. -/
theorem signed_of_integers_eq_nil {v : Raw} (h : v.integers = []) : v.Signed := by
  intro n hn
  rw [h] at hn
  exact absurd hn List.not_mem_nil

/-- A sequence of values with signed words has no other integers. -/
theorem signed_sequence {vs : List Raw} (h : ∀ v ∈ vs, v.Signed) : (sequence vs).Signed := by
  intro n hn
  obtain ⟨v, hv, hn⟩ := mem_integersItems.1 hn
  exact h v hv n hn

/-- Entries whose values have signed words have no other integers. -/
theorem signed_entries {es : List (String × Raw)} (h : ∀ e ∈ es, e.2.Signed) :
    ∀ n ∈ integersEntries es, Json.fitsSigned n = true := by
  intro n hn
  obtain ⟨e, he, hn⟩ := mem_integersEntries.1 hn
  exact h e he n hn

/-- What is true of all values of entries is true when they are put in order. -/
theorem signed_ofList {es : List (String × Raw)} (h : ∀ e ∈ es, e.2.Signed) : ∀ e ∈ Entries.ofList es, e.2.Signed :=
  fun e he => h e (Entries.mem_of_mem_ofList he)

/-- An integer of a document stays what it is only where it is a signed word. -/
theorem signed_ofInteger (n : Int) : (ofInteger n).Signed := by
  unfold ofInteger
  split
  · next hfits =>
    intro m hm
    rw [integers, List.mem_singleton] at hm
    rw [hm]
    exact hfits
  · exact signed_of_integers_eq_nil (by rw [integers])

/-- There are no integers in dates. -/
theorem signed_dateOfJson {v : Json} {w : Raw} (h : dateOfJson v = .ok w) : w.Signed := by
  unfold dateOfJson at h
  split at h
  · split at h
    · cases h
      exact signed_of_integers_eq_nil (by rw [integers])
    · cases h
  · cases h

/-- There are no integers in timestamps. -/
theorem signed_timestampOfJson {v : Json} {w : Raw} (h : timestampOfJson v = .ok w) : w.Signed := by
  unfold timestampOfJson at h
  split at h
  · obtain ⟨t, -, rfl⟩ := map_eq_ok h
    exact signed_of_integers_eq_nil (by rw [integers])
  · cases h

mutual

/-- All integers of a value that was read are signed words. -/
theorem signed_ofJson : (v : Json) → ∀ {w : Raw}, ofJson v = .ok w → w.Signed
  | .null, _, h | .bool _, _, h | .float _, _, h | .string _, _, h => by
    rw [ofJson] at h
    cases h
    exact signed_of_integers_eq_nil (by rw [integers])
  | .integer n, _, h => by
    rw [ofJson] at h
    cases h
    exact signed_ofInteger n
  | .array items, _, h => by
    rw [ofJson] at h
    obtain ⟨ws, hws, rfl⟩ := map_eq_ok h
    exact signed_sequence (signed_itemsOfJson items hws)
  | .object [(key, v)], _, h => by
    rw [ofJson] at h
    split at h
    · exact signed_dateOfJson h
    split at h
    · exact signed_timestampOfJson h
    split at h
    · split at h
      · next o ho =>
        cases h
        exact signed_descriptorOfJson v ho
      · cases h
    · obtain ⟨w, hw, rfl⟩ := map_eq_ok h
      exact signed_entries (List.forall_mem_singleton.2 (signed_ofJson v hw))
  | .object [], _, h => by
    rw [ofJson] at h
    · obtain ⟨es, hes, rfl⟩ := map_eq_ok h
      exact signed_entries (signed_ofList (signed_entriesOfJson [] hes))
    · exact nofun
  | .object (e :: f :: ms), _, h => by
    rw [ofJson] at h
    · obtain ⟨es, hes, rfl⟩ := map_eq_ok h
      exact signed_entries (signed_ofList (signed_entriesOfJson (e :: f :: ms) hes))
    · exact nofun

/-- All integers of an owner that was read are signed words. -/
theorem signed_descriptorOfJson : (v : Json) → ∀ {o : Owner}, descriptorOfJson v = .ok o → o.toField.Signed
  | .object ms, _, h => by
    rw [descriptorOfJson] at h
    obtain ⟨kind, -, h⟩ := bind_eq_ok h
    obtain ⟨names, -, h⟩ := bind_eq_ok h
    obtain ⟨attributes, hattributes, h⟩ := bind_eq_ok h
    cases h
    exact signed_entries (signed_attributesOfJson ms hattributes)
  | .null, _, h | .bool _, _, h | .integer _, _, h | .float _, _, h | .string _, _, h | .array _, _, h => by
    rw [descriptorOfJson] at h
    · cases h
    · exact nofun

/-- All integers of items that were read are signed words. -/
theorem signed_itemsOfJson : (vs : List Json) → ∀ {ws : List Raw}, itemsOfJson vs = .ok ws → ∀ w ∈ ws, w.Signed
  | [], _, h => by
    rw [itemsOfJson] at h
    cases h
    exact fun _ hw => absurd hw List.not_mem_nil
  | v :: vs, _, h => by
    rw [itemsOfJson] at h
    obtain ⟨w, hw, h⟩ := bind_eq_ok h
    obtain ⟨ws, hws, h⟩ := bind_eq_ok h
    cases h
    exact List.forall_mem_cons.2 ⟨signed_ofJson v hw, signed_itemsOfJson vs hws⟩

/-- All integers of entries that were read are signed words. -/
theorem signed_entriesOfJson : (ms : List (String × Json)) → ∀ {es : List (String × Raw)}, entriesOfJson ms = .ok es →
    ∀ e ∈ es, e.2.Signed
  | [], _, h => by
    rw [entriesOfJson] at h
    cases h
    exact fun _ he => absurd he List.not_mem_nil
  | (_, v) :: ms, _, h => by
    rw [entriesOfJson] at h
    obtain ⟨w, hw, h⟩ := bind_eq_ok h
    obtain ⟨es, hes, h⟩ := bind_eq_ok h
    cases h
    exact List.forall_mem_cons.2 ⟨signed_ofJson v hw, signed_entriesOfJson ms hes⟩

/-- All integers of attributes that were read are signed words. -/
theorem signed_attributesOfJson {kind : String} : (ms : List (String × Json)) → ∀ {es : List (String × Raw)},
    attributesOfJson kind ms = .ok es → ∀ e ∈ es, e.2.Signed
  | [], _, h => by
    rw [attributesOfJson] at h
    cases h
    exact fun _ he => absurd he List.not_mem_nil
  | (k, .object ms) :: r, _, h => by
    rw [attributesOfJson] at h
    split at h
    · obtain ⟨es, hes, rfl⟩ := map_eq_ok h
      exact signed_ofList (signed_entriesOfJson ms hes)
    · exact signed_attributesOfJson r h
  | (k, .null) :: r, _, h => by
    rw [attributesOfJson] at h
    split at h
    · cases h
      exact fun _ he => absurd he List.not_mem_nil
    · exact signed_attributesOfJson r h
  | (k, .bool _) :: r, _, h | (k, .integer _) :: r, _, h | (k, .float _) :: r, _, h | (k, .string _) :: r, _, h
  | (k, .array _) :: r, _, h => by
    rw [attributesOfJson] at h
    · split at h
      · cases h
      · exact signed_attributesOfJson r h
    · exact nofun
    · exact nofun

end

end SnapshotLedger.Raw
