import SnapshotLedger.Error
import SnapshotLedger.Proofs.Rendered.Encoding

/-!
# Documents are written as they were read

An object in a document is taken for an object or for a mapping, all or nothing: for an object only if it has
exactly the three members that one is written with, each of the right kind. Whichever it is taken for, no member
is lost or altered by this. Main statement: a document whose integers are signed words is written as it was
read, by itself and as fields (`toJson_undoes_ofJson`).
-/

namespace SnapshotLedger

/-- Fields that were read from an object are written as the same object narrowed. -/
theorem Fields.sorted_toJson_of_ofJson {ms : List (String × Json)} (hw : (Json.object ms).WellFormed) :
    ∃ fields, Fields.ofJson (.object ms) = .ok fields ∧ fields.toJson.sorted = (Json.object ms).narrowed.sorted := by
  refine ⟨Entries.ofList (Rendered.entriesOfJson ms), rfl, ?_⟩
  simp only [toJson, Json.narrowed, Json.sorted]
  rw [Rendered.sorted_entries_ofJson (Rendered.sorted_entriesToJson_entriesOfJson ms hw.2)]

namespace Rendered

/-- Writing undoes reading, the order of members aside. A document whose integers are words and whose binary
numbers are finite, and in whose objects no key stands twice, is written as it was read but for integers too
large for a signed word, which are narrowed; so if all integers are signed words it is written as it was. The
same holds of the fields read from an object. -/
theorem toJson_undoes_ofJson {j : Json} (hw : j.WellFormed) :
    (ofJson j).toJson.sorted = j.narrowed.sorted ∧
      ((∀ n ∈ j.integers, Json.fitsSigned n = true) → (ofJson j).toJson.sorted = j.sorted) ∧
      ∀ ms, j = .object ms → ∃ fields, Fields.ofJson j = .ok fields ∧ fields.toJson.sorted = j.narrowed.sorted ∧
        ((∀ n ∈ j.integers, Json.fitsSigned n = true) → fields.toJson.sorted = j.sorted) := by
  have hsame : (∀ n ∈ j.integers, Json.fitsSigned n = true) → j.narrowed = j := by
    intro hsigned
    rw [Json.narrowed_eq_self_iff]
    intro n hn
    have hfits := hsigned n hn
    simp only [Json.fitsSigned, Bool.and_eq_true, decide_eq_true_eq] at hfits
    exact hfits.2
  have hwritten := sorted_toJson_ofJson j hw
  refine ⟨hwritten, ?_, ?_⟩
  · intro hsigned
    rw [hwritten, hsame hsigned]
  · rintro ms rfl
    obtain ⟨fields, hread, hfields⟩ := Fields.sorted_toJson_of_ofJson hw
    refine ⟨fields, hread, hfields, ?_⟩
    intro hsigned
    rw [hfields, hsame hsigned]

/-- The members that an object is written with, one without names, one with a number among the names, and one
with a member more. -/
def nearMisses : Json := .object [
  ("object", .object (objectMembers "K" ["f"] [("f", .float (.ofInt 1))])),
  ("no names", .object [(attributesKey, .object []), (kindKey, .string "K"), (templateFieldsKey, .null)]),
  ("number", .object [(attributesKey, .object []), (kindKey, .string "K"),
    (templateFieldsKey, .array [.string "f", .integer 7])]),
  ("member", .object (("f", .null) :: objectMembers "K" [] [("f", .object (objectMembers "K" [] []))]))]

theorem toJson_undoes_ofJson_of_near_misses :
    nearMisses.WellFormed ∧ (ofJson nearMisses).toJson.sorted = nearMisses.sorted ∧
    ∃ fields, Fields.ofJson nearMisses = .ok fields ∧ fields.toJson.sorted = nearMisses.sorted := by
  have hw : nearMisses.WellFormed := by
    simp only [nearMisses, objectMembers, Json.WellFormed, Json.WellFormedItems, Json.WellFormedMembers,
      List.map_cons, List.map_nil]
    decide
  have hsigned : ∀ n ∈ nearMisses.integers, Json.fitsSigned n = true := by decide
  obtain ⟨-, hsame, hfields⟩ := toJson_undoes_ofJson hw
  obtain ⟨fields, hread, -, hwritten⟩ := hfields _ rfl
  exact ⟨hw, hsame hsigned, fields, hread, hwritten hsigned⟩

end Rendered

end SnapshotLedger
