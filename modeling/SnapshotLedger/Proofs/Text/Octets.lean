import Mathlib.Tactic.SplitIfs
import SnapshotLedger.Text.Octets

/-!
# The order of octets

UTF-8 keeps the order of texts. A character that takes more octets has the greater first one, and among
characters that take equally many the octets are digits of the code point, the highest first (`Leads`). So it
makes no difference whether texts are compared octet by octet or character by character
(`octets_lt_octets_iff`).
-/

namespace SnapshotLedger.Text

namespace OctetsAux

/-- Octets that stand for different numbers decide, whatever follows them. -/
theorem octet_cons_lt {a b : Nat} (h : a < b) (hb : b < 256) (r s : List UInt8) :
    UInt8.ofNat a :: r < UInt8.ofNat b :: s := by
  rw [List.cons_lt_cons_iff, UInt8.lt_iff_toNat_lt, UInt8.toNat_ofNat', UInt8.toNat_ofNat']
  left
  omega

/-- Numbers below a bound are spelled by octets that are ordered as the numbers are, whatever follows them. -/
def Leads (bound : Nat) (spell : Nat → List UInt8) : Prop :=
  ∀ m n, m < n → n < bound → ∀ r s, spell m ++ r < spell n ++ s

/-- A number is spelled by one octet, with a mark in the bits above it. -/
theorem leads_first (size mark : Nat) (h : mark + size ≤ 256) :
    Leads size fun n => [UInt8.ofNat (n % size + mark)] := by
  intro m n hlt hn r s
  apply octet_cons_lt
  · rw [Nat.mod_eq_of_lt hn, Nat.mod_eq_of_lt (Nat.lt_trans hlt hn)]
    omega
  · rw [Nat.mod_eq_of_lt hn]
    omega

/-- With one octet more, which has the lowest digit, greater numbers are spelled. -/
theorem Leads.next {bound : Nat} {spell : Nat → List UInt8} (h : Leads bound spell) :
    Leads (64 * bound) fun n => spell (n / 64) ++ [UInt8.ofNat (n % 64 + 128)] := by
  intro m n hlt hn r s
  rw [List.append_assoc, List.append_assoc]
  rcases Nat.lt_or_eq_of_le (Nat.div_le_div_right (c := 64) (Nat.le_of_lt hlt)) with hfront | hfront
  · exact h _ _ hfront (by omega) _ _
  · rw [hfront]
    apply List.append_left_lt
    exact octet_cons_lt (by omega) (by omega) _ _

/-- The octets of a smaller character stand in front of those of a greater one, whatever follows them. -/
theorem utf8EncodeChar_append_lt {c d : Char} (h : c < d) (r s : List UInt8) :
    String.utf8EncodeChar c ++ r < String.utf8EncodeChar d ++ s := by
  have hcode : c.val.toNat < d.val.toNat := h
  have hlast : d.val.toNat < 0x110000 := by
    have hvalid := d.valid
    unfold UInt32.isValidChar Nat.isValidChar at hvalid
    omega
  have two := (leads_first 32 192 (by decide)).next
  have three := (leads_first 16 224 (by decide)).next.next
  have four := (leads_first 8 240 (by decide)).next.next.next
  simp only [Nat.div_div_eq_div_mul, List.cons_append, List.nil_append] at two three four
  unfold String.utf8EncodeChar
  dsimp only
  generalize c.val.toNat = m at hcode ⊢
  generalize d.val.toNat = n at hcode hlast ⊢
  split_ifs
  -- a smaller character does not take more octets
  all_goals try omega
  · exact octet_cons_lt hcode (by omega) r s
  · exact octet_cons_lt (by omega) (by omega) _ _
  · exact octet_cons_lt (by omega) (by omega) _ _
  · exact octet_cons_lt (by omega) (by omega) _ _
  · exact two m n hcode (by omega) r s
  · exact octet_cons_lt (by omega) (by omega) _ _
  · exact octet_cons_lt (by omega) (by omega) _ _
  · exact three m n hcode (by omega) r s
  · exact octet_cons_lt (by omega) (by omega) _ _
  · exact four m n hcode (by omega) r s

/-- The octets of a smaller text stand in front of those of a greater one. -/
theorem octets_lt {s t : List Char} (h : s < t) : octets s < octets t := by
  induction s generalizing t with
  | nil =>
    cases t with
    | nil => exact absurd h (List.lt_irrefl [])
    | cons d t =>
      obtain ⟨o, os, hspelled⟩ := List.exists_cons_of_ne_nil (String.utf8EncodeChar_ne_nil (c := d))
      rw [octets, octets, List.flatMap_cons, hspelled]
      exact List.nil_lt_cons _ _
  | cons c s ih =>
    cases t with
    | nil => exact absurd h (List.not_lt_nil _)
    | cons d t =>
      rw [octets, octets, List.flatMap_cons, List.flatMap_cons]
      rcases List.cons_lt_cons_iff.1 h with hfirst | ⟨rfl, hrest⟩
      · exact utf8EncodeChar_append_lt hfirst _ _
      · exact List.append_left_lt (ih hrest)

end OctetsAux

/-- Texts are ordered by their octets as they are by their characters. -/
theorem octets_lt_octets_iff {s t : List Char} : octets s < octets t ↔ s < t := by
  constructor
  · intro h
    apply List.not_le.1
    intro hle
    rcases List.le_iff_lt_or_eq.1 hle with hgt | rfl
    · exact List.lt_asymm h (OctetsAux.octets_lt hgt)
    · exact List.lt_irrefl _ h
  · exact OctetsAux.octets_lt

/-- Octet by octet, a text stands in front of another or is the same, exactly when it does not stand behind it. -/
theorem octets_lt_or_eq_iff {a b : String} : octets a.toList < octets b.toList ∨ a = b ↔ a ≤ b := by
  have hlt : octets a.toList < octets b.toList ↔ a < b := octets_lt_octets_iff
  rw [hlt]
  constructor
  · rintro (h | rfl)
    · exact String.not_lt.1 (String.lt_asymm h)
    · exact String.le_refl a
  · intro hle
    by_cases hsame : a = b
    · exact .inr hsame
    · exact .inl (String.not_le.1 fun hge => hsame (String.le_antisymm hle hge))

end SnapshotLedger.Text
