/-!
# Sorting

Sorting by insertion, after a relation that says which of two items may stand first. Items that may stand either
way keep their order.

Sorting only rearranges (`perm_sortBy`). By a relation that is total and transitive it puts a list in order
(`pairwise_sortBy`), so that an item which no other one may stand before is the first (`head?_sortBy`). In a list
whose items stand in a strict order, an item is among the first `n` exactly when fewer than `n` items stand before
it (`mem_take_iff`).
-/

namespace SnapshotLedger.Sorting

variable {α : Type}

/-- The sorted list with an item put before the first one that it may stand before. -/
def insertBy (le : α → α → Bool) (x : α) : List α → List α
  | [] => [x]
  | y :: r => if le x y then x :: y :: r else y :: insertBy le x r

/-- The list in order. -/
def sortBy (le : α → α → Bool) : List α → List α
  | [] => []
  | x :: r => insertBy le x (sortBy le r)

/-- Putting an item in adds that item. -/
theorem perm_insertBy (le : α → α → Bool) (x : α) (l : List α) : (insertBy le x l).Perm (x :: l) := by
  induction l with
  | nil => exact .refl _
  | cons y r ih =>
    unfold insertBy
    split
    · exact .refl _
    · exact (ih.cons y).trans (.swap x y r)

/-- Sorting rearranges. -/
theorem perm_sortBy (le : α → α → Bool) (l : List α) : (sortBy le l).Perm l := by
  induction l with
  | nil => exact .refl _
  | cons x r ih => exact (perm_insertBy le x _).trans (ih.cons x)

/-- Putting an item into a list in order keeps the order. -/
theorem pairwise_insertBy {le : α → α → Bool} (total : ∀ a b, le a b = true ∨ le b a = true)
    (trans : ∀ a b c, le a b = true → le b c = true → le a c = true) (x : α) {l : List α}
    (h : l.Pairwise (fun a b => le a b = true)) : (insertBy le x l).Pairwise (fun a b => le a b = true) := by
  induction l with
  | nil => exact List.pairwise_singleton _ _
  | cons y r ih =>
    obtain ⟨hfirst, hrest⟩ := List.pairwise_cons.1 h
    unfold insertBy
    split
    · next hxy =>
      refine List.pairwise_cons.2 ⟨fun z hz => ?_, h⟩
      rcases List.mem_cons.1 hz with rfl | hz
      · exact hxy
      · exact trans x y z hxy (hfirst z hz)
    · next hxy =>
      refine List.pairwise_cons.2 ⟨fun z hz => ?_, ih hrest⟩
      rcases List.mem_cons.1 ((perm_insertBy le x r).mem_iff.1 hz) with rfl | hz
      · exact (total z y).resolve_left hxy
      · exact hfirst z hz

/-- Sorting puts a list in order. -/
theorem pairwise_sortBy {le : α → α → Bool} (total : ∀ a b, le a b = true ∨ le b a = true)
    (trans : ∀ a b c, le a b = true → le b c = true → le a c = true) (l : List α) :
    (sortBy le l).Pairwise (fun a b => le a b = true) := by
  induction l with
  | nil => exact List.Pairwise.nil
  | cons x r ih => exact pairwise_insertBy total trans x ih

/-- An item that no other one may stand before is the first one of the sorted list. -/
theorem head?_sortBy {le : α → α → Bool} (total : ∀ a b, le a b = true ∨ le b a = true)
    (trans : ∀ a b c, le a b = true → le b c = true → le a c = true) {l : List α} {x : α} (hx : x ∈ l)
    (hfirst : ∀ y ∈ l, le y x = true → y = x) : (sortBy le l).head? = some x := by
  have hsorted := pairwise_sortBy total trans l
  have hperm := perm_sortBy le l
  cases h : sortBy le l with
  | nil =>
    rw [h] at hperm
    exact absurd (hperm.mem_iff.2 hx) List.not_mem_nil
  | cons y r =>
    rw [h] at hsorted hperm
    rcases List.mem_cons.1 (hperm.mem_iff.2 hx) with heq | hmem
    · rw [heq, List.head?_cons]
    · have hle := (List.pairwise_cons.1 hsorted).1 x hmem
      rw [hfirst y (hperm.mem_iff.1 List.mem_cons_self) hle, List.head?_cons]

/-- In a list in strict order, the first `n` items are those that fewer than `n` items stand before. -/
theorem mem_take_iff {before : α → α → Bool} (asymm : ∀ a b, before a b = true → before b a = false) {l : List α}
    (h : l.Pairwise (fun a b => before a b = true)) (x : α) (n : Nat) :
    x ∈ l.take n ↔ x ∈ l ∧ l.countP (before · x) < n := by
  have irrefl : ∀ a, before a a = false := by
    intro a
    by_cases ha : before a a = true
    · exact asymm a a ha
    · exact Bool.eq_false_iff.2 ha
  induction l generalizing n with
  | nil => simp
  | cons y r ih =>
    obtain ⟨hfirst, hrest⟩ := List.pairwise_cons.1 h
    cases n with
    | zero => simp
    | succ n =>
      have tail : x ∈ r.take n ↔ x ∈ r ∧ r.countP (before · x) < n := ih hrest n
      rw [List.take_succ_cons, List.mem_cons, List.mem_cons, tail, List.countP_cons]
      by_cases hxy : x = y
      · subst hxy
        have hnone : r.countP (before · x) = 0 := by
          rw [List.countP_eq_zero]
          intro z hz
          simp [asymm x z (hfirst z hz)]
        simp [hnone, irrefl]
      · constructor
        · rintro (rfl | ⟨hx, hn⟩)
          · exact absurd rfl hxy
          · refine ⟨.inr hx, ?_⟩
            rw [if_pos (hfirst x hx)]
            omega
        · rintro ⟨hx | hx, hn⟩
          · exact absurd hx hxy
          · rw [if_pos (hfirst x hx)] at hn
            exact .inr ⟨hx, by omega⟩

end SnapshotLedger.Sorting
