import Mathlib.Data.List.TakeWhile
import SnapshotLedger.Text.Ascii
import SnapshotLedger.Text.Search

/-!
# What is left after trimming

A text is blank when nothing is left of it (`isBlank_iff`), and not when one of its characters is no blank
(`isBlank_eq_false`). More blanks around a text are trimmed together with its own (`trim_pad`).
-/

namespace SnapshotLedger.Text

/-- Of a blank text nothing is left once it is trimmed, in lower case either. -/
theorem isBlank_iff {s : String} : isBlank s = true ↔ lower (trim s) = "" := by
  rw [isBlank, List.isEmpty_iff, lower, trim, String.toList_ofList, ← String.toList_eq_nil_iff, String.toList_ofList,
    List.map_eq_nil_iff]

/-- A text with a character that is not blank is not blank. -/
theorem isBlank_eq_false {s : String} {c : Char} (hc : c ∈ s.toList) (hblank : isBlankChar c = false) :
    isBlank s = false := by
  rw [isBlank, List.isEmpty_eq_false_iff, trimChars]
  intro hnil
  rw [List.reverse_eq_nil_iff, List.dropWhile_eq_nil_iff] at hnil
  have hall : isBlankChar c = true := by
    rw [← List.takeWhile_append_dropWhile (p := isBlankChar) (l := s.toList), List.mem_append] at hc
    rcases hc with hc | hc
    · exact List.all_eq_true.1 List.all_takeWhile c hc
    · exact hnil c (List.mem_reverse.2 hc)
  rw [hblank] at hall
  cases hall

/-- A text that is not blank has characters. -/
theorem toList_ne_nil_of_not_isBlank {s : String} (h : isBlank s = false) : s.toList ≠ [] := by
  intro hnil
  rw [isBlank, hnil] at h
  cases h

/-- Blanks put around a text are trimmed together with its own. -/
theorem trimChars_pad {left right : List Char} (hleft : ∀ c ∈ left, isBlankChar c = true)
    (hright : ∀ c ∈ right, isBlankChar c = true) (s : List Char) : trimChars (left ++ s ++ right) = trimChars s := by
  have hfront : (left ++ s ++ right).dropWhile isBlankChar = (s ++ right).dropWhile isBlankChar := by
    rw [List.append_assoc, List.dropWhile_append_of_pos hleft]
  have hback : ∀ t : List Char, (t ++ right).reverse.dropWhile isBlankChar = t.reverse.dropWhile isBlankChar := by
    intro t
    rw [List.reverse_append]
    exact List.dropWhile_append_of_pos fun c hc => hright c (List.mem_reverse.1 hc)
  unfold trimChars
  rw [hfront, List.dropWhile_append]
  split
  · next hblank =>
    rw [List.isEmpty_iff.1 hblank, List.dropWhile_eq_nil_iff.2 hright]
  · rw [hback]

/-- Blanks put around a text are trimmed together with its own. -/
theorem trim_pad {left right : String} (hleft : ∀ c ∈ left.toList, isBlankChar c = true)
    (hright : ∀ c ∈ right.toList, isBlankChar c = true) (s : String) : trim (left ++ s ++ right) = trim s := by
  rw [trim, trim, String.toList_append, String.toList_append, trimChars_pad hleft hright]

end SnapshotLedger.Text
