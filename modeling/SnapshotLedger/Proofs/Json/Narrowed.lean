import SnapshotLedger.Proofs.Entries
import SnapshotLedger.Proofs.Json.ReadBack
import SnapshotLedger.Proofs.Json.WellFormed

/-!
# Documents of signed words

A value holds integers as signed words only, and a binary number in place of each larger one. `narrowed` is the
document with these in their places, and it is the document itself exactly when all integers in it are signed
words (`narrowed_eq_self_iff`).
-/

namespace SnapshotLedger.Json

mutual

/-- The document with binary numbers in place of the integers that are too large for a signed word. -/
def narrowed : Json → Json
  | null => null
  | bool b => bool b
  | integer n => if n ≤ greatestInteger then integer n else float (.ofInt n)
  | float x => float x
  | string s => string s
  | array vs => array (narrowedItems vs)
  | object ms => object (narrowedMembers ms)

/-- The items, each of them narrowed. -/
def narrowedItems : List Json → List Json
  | [] => []
  | v :: vs => narrowed v :: narrowedItems vs

/-- The members, the value of each of them narrowed. -/
def narrowedMembers : List (String × Json) → List (String × Json)
  | [] => []
  | (k, v) :: ms => (k, narrowed v) :: narrowedMembers ms

end

mutual

/-- The integers in the document. -/
def integers : Json → List Int
  | integer n => [n]
  | array vs => integersItems vs
  | object ms => integersMembers ms
  | null | bool _ | float _ | string _ => []

/-- The integers in items. -/
def integersItems : List Json → List Int
  | [] => []
  | v :: vs => integers v ++ integersItems vs

/-- The integers in the values of members. -/
def integersMembers : List (String × Json) → List Int
  | [] => []
  | (_, v) :: ms => integers v ++ integersMembers ms

end

/-- Narrowing members narrows their values. -/
theorem narrowedMembers_eq (ms : List (String × Json)) : narrowedMembers ms = Entries.mapValues narrowed ms :=
  Entries.eq_mapValues rfl (fun _ _ => rfl) ms

mutual

/-- Narrowing changes nothing exactly when all integers fit in a signed word. -/
theorem narrowed_eq_self_iff : (j : Json) → (j.narrowed = j ↔ ∀ n ∈ j.integers, n ≤ greatestInteger)
  | .null | .bool _ | .float _ | .string _ => by simp [narrowed, integers]
  | .integer n => by
    rw [narrowed, integers, List.forall_mem_singleton]
    split
    · next hfits => exact ⟨fun _ => hfits, fun _ => rfl⟩
    · next hlarge => exact ⟨nofun, fun hfits => absurd hfits hlarge⟩
  | .array vs => by
    rw [narrowed, integers, Json.array.injEq]
    exact narrowedItems_eq_self_iff vs
  | .object ms => by
    rw [narrowed, integers, Json.object.injEq]
    exact narrowedMembers_eq_self_iff ms

/-- Narrowing items changes nothing exactly when all integers in them fit in a signed word. -/
theorem narrowedItems_eq_self_iff : (vs : List Json) →
    (narrowedItems vs = vs ↔ ∀ n ∈ integersItems vs, n ≤ greatestInteger)
  | [] => by simp [narrowedItems, integersItems]
  | v :: vs => by
    rw [narrowedItems, integersItems, List.cons.injEq, List.forall_mem_append, narrowed_eq_self_iff v,
      narrowedItems_eq_self_iff vs]

/-- Narrowing members changes nothing exactly when all integers in them fit in a signed word. -/
theorem narrowedMembers_eq_self_iff : (ms : List (String × Json)) →
    (narrowedMembers ms = ms ↔ ∀ n ∈ integersMembers ms, n ≤ greatestInteger)
  | [] => by simp [narrowedMembers, integersMembers]
  | (k, v) :: ms => by
    simp only [narrowedMembers, integersMembers, List.cons.injEq, Prod.mk.injEq, true_and, List.forall_mem_append,
      narrowed_eq_self_iff v, narrowedMembers_eq_self_iff ms]

end

/-- An integer of one word is a signed word and stays, or it is larger and a finite binary number takes its place. -/
theorem narrowed_integer {n : Int} (h : (integer n).WellFormed) :
    fitsSigned n = true ∧ (integer n).narrowed = integer n ∨
      ¬fitsSigned n = true ∧ (Binary64.ofInt n).isFinite = true ∧ (integer n).narrowed = float (.ofInt n) := by
  obtain ⟨hleast, hgreatest⟩ := h
  by_cases hfits : n ≤ greatestInteger
  · left
    exact ⟨by simp [fitsSigned, hleast, hfits], by rw [narrowed, if_pos hfits]⟩
  · right
    have hword : n.natAbs ≤ greatestUnsigned := by
      simp only [greatestInteger] at hfits
      omega
    exact ⟨by simp [fitsSigned, hfits], Binary64.isFinite_ofInt (lt_of_le_greatestUnsigned hword),
      by rw [narrowed, if_neg hfits]⟩

mutual

/-- Plain documents are well-formed and have nothing to be narrowed. -/
theorem Plain.wellFormed : {v : Json} → v.Plain → v.WellFormed ∧ v.narrowed = v
  | null, _ | bool _, _ | string _, _ => ⟨trivial, rfl⟩
  | integer n, h => by
    simp only [Plain, fitsSigned, Bool.and_eq_true, decide_eq_true_eq] at h
    refine ⟨⟨h.1, ?_⟩, by rw [narrowed, if_pos h.2]⟩
    exact Int.le_trans h.2 (by decide)
  | float _, h => by simp only [Plain] at h
  | array vs, h => by
    simp only [Plain] at h
    obtain ⟨hw, hnarrowed⟩ := wellFormedItems_of_plain h
    exact ⟨hw, congrArg array hnarrowed⟩
  | object ms, h => by
    simp only [Plain] at h
    obtain ⟨hw, hnarrowed⟩ := wellFormedMembers_of_plain h.2
    exact ⟨⟨h.1, hw⟩, congrArg object hnarrowed⟩

/-- Plain items are well-formed and have nothing to be narrowed. -/
theorem wellFormedItems_of_plain : {vs : List Json} → PlainItems vs → WellFormedItems vs ∧ narrowedItems vs = vs
  | [], _ => ⟨trivial, rfl⟩
  | v :: vs, h => by
    obtain ⟨hw, hnarrowed⟩ := Plain.wellFormed h.1
    obtain ⟨hws, hrest⟩ := wellFormedItems_of_plain h.2
    exact ⟨⟨hw, hws⟩, by rw [narrowedItems, hnarrowed, hrest]⟩

/-- Plain members are well-formed and have nothing to be narrowed. -/
theorem wellFormedMembers_of_plain : {ms : List (String × Json)} → PlainMembers ms →
    WellFormedMembers ms ∧ narrowedMembers ms = ms
  | [], _ => ⟨trivial, rfl⟩
  | (k, v) :: ms, h => by
    obtain ⟨hw, hnarrowed⟩ := Plain.wellFormed h.1
    obtain ⟨hws, hrest⟩ := wellFormedMembers_of_plain h.2
    exact ⟨⟨hw, hws⟩, by rw [narrowedMembers, hnarrowed, hrest]⟩

end

end SnapshotLedger.Json
