import Mathlib.Data.List.Forall2

/-!
# Answers that are no errors

What is known of a chain of steps that may fail when the whole of it has not failed: none of its steps has, and
each of them has given what the next one went on with. Of a list of such steps, the first one that fails is
blamed for the whole (`mapM_eq_error_iff`).
-/

namespace SnapshotLedger

variable {ε ε' α β γ : Type}

/-- Of a step and the one behind it, both have succeeded. -/
theorem bind_eq_ok {x : Except ε α} {g : α → Except ε β} {b : β} (h : (x >>= g) = .ok b) :
    ∃ a, x = .ok a ∧ g a = .ok b := by
  cases x with
  | error e => cases h
  | ok a => exact ⟨a, rfl, h⟩

/-- A check in front of a step that has succeeded was passed. -/
theorem check_eq_ok {c : Prop} [Decidable c] {e : ε} {g : α → Except ε β} {x : Except ε β} {b : β}
    (h : (if c then Except.error e >>= g else x) = .ok b) : ¬c ∧ x = .ok b := by
  split at h
  · cases h
  · next hc => exact ⟨hc, h⟩

/-- A step whose answer is changed has succeeded. -/
theorem map_eq_ok {x : Except ε α} {f : α → β} {b : β} (h : x.map f = .ok b) : ∃ a, x = .ok a ∧ f a = b := by
  cases x with
  | error e => cases h
  | ok a => exact ⟨a, rfl, Except.ok.inj h⟩

/-- A step whose answer is changed fails when the step does, and in the same way. -/
theorem map_eq_error_iff {x : Except ε α} {f : α → β} {e : ε} : x.map f = .error e ↔ x = .error e := by
  cases x with
  | error e' =>
    change Except.error e' = Except.error e ↔ _
    rw [Except.error.injEq, Except.error.injEq]
  | ok a => exact ⟨nofun, nofun⟩

/-- A step whose errors are changed has succeeded with the same answer. -/
theorem mapError_eq_ok {x : Except ε α} {f : ε → ε'} {a : α} (h : x.mapError f = .ok a) : x = .ok a := by
  cases x with
  | error e => cases h
  | ok b =>
    cases h
    rfl

/-- A step whose errors are changed succeeds exactly when the step does. -/
theorem mapError_eq_ok_iff {x : Except ε α} {f : ε → ε'} {a : α} : x.mapError f = .ok a ↔ x = .ok a := by
  constructor
  · exact mapError_eq_ok
  · intro h
    rw [h]
    rfl

/-- A step whose errors are changed fails exactly when the step does. -/
theorem mapError_fails_iff {x : Except ε α} {f : ε → ε'} : (∃ e, x.mapError f = .error e) ↔ ∃ e, x = .error e := by
  cases x with
  | ok a => exact ⟨nofun, nofun⟩
  | error e => exact ⟨fun _ => ⟨e, rfl⟩, fun _ => ⟨f e, rfl⟩⟩

/-- What was made of the items of a list begins with what was made of the first one. -/
theorem mapM_cons_eq_ok {f : α → Except ε β} {a : α} {l : List α} {m : List β} (h : (a :: l).mapM f = .ok m) :
    ∃ first rest, f a = .ok first ∧ l.mapM f = .ok rest ∧ m = first :: rest := by
  rw [List.mapM_cons] at h
  obtain ⟨first, hfirst, h⟩ := bind_eq_ok h
  obtain ⟨rest, hrest, h⟩ := bind_eq_ok h
  cases h
  exact ⟨first, rest, hfirst, hrest, rfl⟩

/-- What was made of the items of a list, one after the other, was made of one of them each. -/
theorem mem_of_mapM_eq_ok {f : α → Except ε β} {l : List α} {m : List β} (h : l.mapM f = .ok m) {b : β} (hb : b ∈ m) :
    ∃ a ∈ l, f a = .ok b := by
  induction l generalizing m with
  | nil =>
    cases h
    exact absurd hb List.not_mem_nil
  | cons a l ih =>
    obtain ⟨first, rest, hfirst, hrest, rfl⟩ := mapM_cons_eq_ok h
    rcases List.mem_cons.1 hb with rfl | hb
    · exact ⟨a, List.mem_cons_self, hfirst⟩
    · obtain ⟨c, hc, heq⟩ := ih hrest hb
      exact ⟨c, List.mem_cons_of_mem _ hc, heq⟩

/-- Each item of a list has been made into something. -/
theorem mem_mapM_of_eq_ok {f : α → Except ε β} {l : List α} {m : List β} (h : l.mapM f = .ok m) {a : α} (ha : a ∈ l) :
    ∃ b ∈ m, f a = .ok b := by
  induction l generalizing m with
  | nil => exact absurd ha List.not_mem_nil
  | cons c l ih =>
    obtain ⟨first, rest, hfirst, hrest, rfl⟩ := mapM_cons_eq_ok h
    rcases List.mem_cons.1 ha with rfl | ha
    · exact ⟨first, List.mem_cons_self, hfirst⟩
    · obtain ⟨b, hb, heq⟩ := ih hrest ha
      exact ⟨b, List.mem_cons_of_mem _ hb, heq⟩

/-- What was made of the items of a list stands in their order. -/
theorem mapM_eq_ok_iff {f : α → Except ε β} {l : List α} {m : List β} :
    l.mapM f = .ok m ↔ List.Forall₂ (fun a b => f a = .ok b) l m := by
  constructor
  · intro h
    induction l generalizing m with
    | nil =>
      cases h
      exact .nil
    | cons a l ih =>
      obtain ⟨first, rest, hfirst, hrest, rfl⟩ := mapM_cons_eq_ok h
      exact .cons hfirst (ih hrest)
  · intro h
    induction h with
    | nil => rfl
    | cons hfirst _ ih =>
      rw [List.mapM_cons, hfirst, ih]
      rfl

/-- Items have counterparts in some list when each of them has one. -/
theorem exists_forall₂_iff {R : α → β → Prop} {l : List α} : (∃ m, List.Forall₂ R l m) ↔ ∀ a ∈ l, ∃ b, R a b := by
  induction l with
  | nil => simp
  | cons a l ih =>
    rw [List.forall_mem_cons, ← ih]
    constructor
    · rintro ⟨m, h⟩
      cases h with
      | cons hfirst hrest => exact ⟨⟨_, hfirst⟩, _, hrest⟩
    · rintro ⟨⟨b, hfirst⟩, m, hrest⟩
      exact ⟨b :: m, .cons hfirst hrest⟩

/-- What was made of the items of a list may be changed item by item. -/
theorem map_mapM (f : α → Except ε β) (g : β → γ) (l : List α) :
    (l.mapM f).map (List.map g) = l.mapM fun a => (f a).map g := by
  induction l with
  | nil => rfl
  | cons a l ih =>
    rw [List.mapM_cons, List.mapM_cons, ← ih]
    cases f a with
    | error e => rfl
    | ok b => cases l.mapM f <;> rfl

/-- The error about the items of a list may be changed item by item. -/
theorem mapError_mapM (f : α → Except ε β) (g : ε → ε') (l : List α) :
    (l.mapM f).mapError g = l.mapM fun a => (f a).mapError g := by
  induction l with
  | nil => rfl
  | cons a l ih =>
    rw [List.mapM_cons, List.mapM_cons, ← ih]
    cases f a with
    | error e => rfl
    | ok b => cases l.mapM f <;> rfl

/-- Lists made of the pieces of each item come to the same as lists made of the items, where they do so for one item. -/
theorem mapM_flatMap {f : β → Except ε (List γ)} {g : α → Except ε (List γ)} {pieces : α → List β}
    (h : ∀ a, ((pieces a).mapM f).map List.flatten = g a) (l : List α) :
    ((l.flatMap pieces).mapM f).map List.flatten = (l.mapM g).map List.flatten := by
  induction l with
  | nil => rfl
  | cons a l ih =>
    rw [List.flatMap_cons, List.mapM_append, List.mapM_cons, ← h a]
    cases (pieces a).mapM f with
    | error e => rfl
    | ok first =>
      cases hrest : (l.flatMap pieces).mapM f with
      | error e =>
        rw [hrest] at ih
        cases hitems : l.mapM g with
        | error e' =>
          rw [hitems] at ih
          cases ih
          rfl
        | ok rest =>
          rw [hitems] at ih
          cases ih
      | ok rest =>
        rw [hrest] at ih
        obtain ⟨rest', hitems, hflat⟩ := map_eq_ok ih.symm
        rw [hitems]
        exact congrArg Except.ok (List.flatten_append.trans (congrArg (first.flatten ++ ·) hflat.symm))

/-- If something can be made of each item, something is made of the list. -/
theorem exists_mapM_eq_ok {f : α → Except ε β} {l : List α} (h : ∀ a ∈ l, ∃ b, f a = .ok b) :
    ∃ m, l.mapM f = .ok m := by
  induction l with
  | nil => exact ⟨[], rfl⟩
  | cons a l ih =>
    obtain ⟨first, hfirst⟩ := h a List.mem_cons_self
    obtain ⟨rest, hrest⟩ := ih fun b hb => h b (List.mem_cons_of_mem _ hb)
    refine ⟨first :: rest, ?_⟩
    rw [List.mapM_cons, hfirst, hrest]
    rfl

/-- The error about a list is that of the first item of which nothing can be made. -/
theorem mapM_eq_error_iff {f : α → Except ε β} {l : List α} {e : ε} :
    l.mapM f = .error e ↔ ∃ front a back, l = front ++ a :: back ∧ (∀ b ∈ front, ∃ c, f b = .ok c) ∧
      f a = .error e := by
  constructor
  · intro h
    induction l with
    | nil => cases h
    | cons a l ih =>
      rw [List.mapM_cons] at h
      cases hfirst : f a with
      | error e' =>
        rw [hfirst] at h
        cases h
        exact ⟨[], a, l, rfl, nofun, hfirst⟩
      | ok b =>
        cases hrest : l.mapM f with
        | ok m =>
          rw [hfirst, hrest] at h
          cases h
        | error e' =>
          rw [hfirst, hrest] at h
          cases h
          obtain ⟨front, c, back, rfl, hfront, hc⟩ := ih hrest
          refine ⟨a :: front, c, back, rfl, fun d hd => ?_, hc⟩
          rcases List.mem_cons.1 hd with rfl | hd
          · exact ⟨b, hfirst⟩
          · exact hfront d hd
  · rintro ⟨front, a, back, rfl, hfront, ha⟩
    obtain ⟨m, hm⟩ := exists_mapM_eq_ok hfront
    rw [List.mapM_append, hm, List.mapM_cons, ha]
    rfl

/-- Where an item counts, something that corresponds to it is made, and otherwise there is always the same
error: so it is with the list, which counts when all of its items do. -/
theorem mapM_forall₂ {δ : Type} {f : α → Except ε β} {e : ε} {counts : δ → Prop} {R : β → δ → Prop}
    {l : List α} {n : List δ}
    (h : List.Forall₂ (fun a d => counts d ∧ (∃ b, f a = .ok b ∧ R b d) ∨ ¬counts d ∧ f a = .error e) l n) :
    (∀ d ∈ n, counts d) ∧ (∃ m, l.mapM f = .ok m ∧ List.Forall₂ R m n) ∨ ¬(∀ d ∈ n, counts d) ∧
      l.mapM f = .error e := by
  induction h with
  | nil => exact .inl ⟨nofun, [], rfl, .nil⟩
  | cons hfirst _ ih =>
    rw [List.forall_mem_cons, List.mapM_cons]
    rcases hfirst with ⟨hcounts, b, hb, hrel⟩ | ⟨hnot, herror⟩
    · rcases ih with ⟨hall, m, hm, hrels⟩ | ⟨hsome, herror⟩
      · exact .inl ⟨⟨hcounts, hall⟩, b :: m, by rw [hb, hm]; rfl, .cons hrel hrels⟩
      · exact .inr ⟨fun hall => hsome hall.2, by rw [hb, herror]; rfl⟩
    · exact .inr ⟨fun hall => hnot hall.1, by rw [herror]; rfl⟩

/-- Nothing is made of a list exactly when nothing can be made of one of its items. -/
theorem mapM_fails_iff {f : α → Except ε β} {l : List α} :
    (∃ e, l.mapM f = .error e) ↔ ∃ a ∈ l, ∃ e, f a = .error e := by
  constructor
  · rintro ⟨e, h⟩
    refine Classical.byContradiction fun hnone => ?_
    have hall : ∀ a ∈ l, ∃ b, f a = .ok b := by
      intro a ha
      cases hfirst : f a with
      | ok b => exact ⟨b, rfl⟩
      | error e' => exact absurd ⟨a, ha, e', hfirst⟩ hnone
    obtain ⟨m, hm⟩ := exists_mapM_eq_ok hall
    rw [h] at hm
    cases hm
  · rintro ⟨a, ha, e, hfails⟩
    cases h : l.mapM f with
    | error e' => exact ⟨e', rfl⟩
    | ok m =>
      obtain ⟨b, -, hok⟩ := mem_mapM_of_eq_ok h ha
      rw [hfails] at hok
      cases hok

end SnapshotLedger
