import Mathlib
import SnapshotLedger.Proofs.Text.Blank

/-!
# Texts in lower case

What is in lower case stays as it is, and so does what is no letter (`lower_lower`, `mem_lower`). As no letter
is blank, trimming and putting in lower case may be done in either order (`lower_trim`).
-/

namespace SnapshotLedger.Text

/-- A text in lower case stays as it is. -/
theorem lower_lower (s : String) : lower (lower s) = lower s := by
  rw [lower, lower, String.toList_ofList, List.map_map]
  exact congrArg String.ofList (List.map_congr_left fun c _ => Char.toLower_toLower_eq_toLower c)

/-- A text in upper case and the text have the same lower case. -/
theorem lower_upper (s : String) : lower (upper s) = lower s := by
  rw [lower, lower, upper, String.toList_ofList, List.map_map]
  exact congrArg String.ofList (List.map_congr_left fun c _ => Char.toLower_toUpper_eq_toLower c)

/-- A character that is no letter is its own lower case. -/
theorem toLower_of_not_alpha {c : Char} (h : c.isAlpha = false) : c.toLower = c := by
  refine Char.toLower_eq_of_not_isUpper ?_
  intro hupper
  rw [Char.isAlpha, hupper] at h
  cases h

/-- A character that is no letter stands in a text in lower case where it stands in the text. -/
theorem mem_lower {d : Char} (hd : d.isAlpha = false) (s : String) : d ∈ (lower s).toList ↔ d ∈ s.toList := by
  rw [lower, String.toList_ofList, List.mem_map]
  constructor
  · rintro ⟨c, hc, rfl⟩
    rw [Char.isAlpha_toLower_eq_isAlpha] at hd
    rwa [toLower_of_not_alpha hd]
  · intro h
    exact ⟨d, h, toLower_of_not_alpha hd⟩

/-- No letter is blank. -/
theorem isBlankChar_of_isAlpha {c : Char} (h : c.isAlpha = true) : isBlankChar c = false := by
  simp only [Char.isAlpha, Char.isUpper, Char.isLower, Bool.or_eq_true, Bool.and_eq_true, decide_eq_true_eq, ge_iff_le,
    UInt32.le_iff_toNat_le] at h
  have hletter : 65 ≤ c.toNat ∧ c.toNat ≤ 90 ∨ 97 ≤ c.toNat ∧ c.toNat ≤ 122 := h
  simp only [isBlankChar, Bool.or_eq_false_iff, Bool.and_eq_false_iff, decide_eq_false_iff_not, beq_eq_false_iff_ne]
  omega

/-- A character is blank in either case. -/
theorem isBlankChar_toLower (c : Char) : isBlankChar c.toLower = isBlankChar c := by
  cases h : c.isAlpha with
  | true => rw [isBlankChar_of_isAlpha h, isBlankChar_of_isAlpha (c.isAlpha_toLower_eq_isAlpha.trans h)]
  | false => rw [toLower_of_not_alpha h]

/-- The blanks around a text are the same in lower case. -/
theorem trimChars_map_toLower (s : List Char) : trimChars (s.map Char.toLower) = (trimChars s).map Char.toLower := by
  have hblank : isBlankChar ∘ Char.toLower = isBlankChar := funext isBlankChar_toLower
  simp only [trimChars, List.dropWhile_map, hblank, ← List.map_reverse]

/-- Trimming and putting in lower case may be done in either order. -/
theorem lower_trim (s : String) : lower (trim s) = trim (lower s) := by
  simp only [lower, trim, String.toList_ofList, trimChars_map_toLower]

end SnapshotLedger.Text
