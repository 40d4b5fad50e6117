import SnapshotLedger.Text.Search

/-!
# What is left after replacing

Replacing brings no text in that cannot overlap with what is put in (`Apart`, `infix_of_infix_replaceAll`), and
what is replaced by something it cannot overlap with occurs no more (`not_infix_replaceAll`). It goes on behind
each occurrence (`replaceAll_append`), and leaves a text without any as it is (`replaceAll_eq_self`).

Of several marks the one that stands first in a text is looked for here as well (`IsFirst`): it is there as soon
as one of the marks occurs, and where all marks have the same length there is but one.
-/

namespace SnapshotLedger.Text

/-- A text occurs where it is a prefix or further on. -/
theorem occursIn_cons {pat : List Char} {c : Char} {s : List Char} :
    occursIn pat (c :: s) = true ↔ pat.isPrefixOf (c :: s) = true ∨ occursIn pat s = true := by
  rw [occursIn, Bool.or_eq_true]

/-- A text occurs in those that it is a stretch of. -/
theorem occursIn_iff {pat s : List Char} : occursIn pat s = true ↔ pat <:+: s := by
  induction s with
  | nil => simp [occursIn]
  | cons c s ih => rw [occursIn_cons, ih, List.isPrefixOf_iff_prefix, List.infix_cons_iff]

/-- One text occurs in another. -/
theorem contains_iff {s part : String} : contains s part = true ↔ part.toList <:+: s.toList := occursIn_iff

/-- Two characters stand side by side in a text and the one behind it when they do so in one of these, or across
the place between. -/
theorem pair_infix_append_iff {c d : Char} {s t : List Char} :
    [c, d] <:+: s ++ t ↔ [c, d] <:+: s ∨ [c, d] <:+: t ∨ ∃ front back, s = front ++ [c] ∧ t = d :: back := by
  constructor
  · rintro ⟨front, back, heq⟩
    rw [List.append_assoc] at heq
    rcases List.append_eq_append_iff.1 heq with ⟨ahead, rfl, hback⟩ | ⟨ahead, rfl, rfl⟩
    -- `ahead` is what the first text has from the pair on
    · rcases ahead with _ | ⟨a, _ | ⟨b, ahead⟩⟩
      · exact .inr (.inl ⟨[], back, hback⟩)
      · simp only [List.cons_append, List.nil_append, List.cons.injEq] at hback
        obtain ⟨rfl, rfl⟩ := hback
        exact .inr (.inr ⟨front, back, rfl, rfl⟩)
      · simp only [List.cons_append, List.nil_append, List.cons.injEq] at hback
        obtain ⟨rfl, rfl, -⟩ := hback
        exact .inl ⟨front, ahead, by simp⟩
    · exact .inr (.inl ⟨ahead, back, by simp⟩)
  · rintro (h | h | ⟨front, back, rfl, rfl⟩)
    · exact h.trans (List.prefix_append s t).isInfix
    · exact h.trans (List.suffix_append s t).isInfix
    · exact ⟨front, back, by simp⟩

/-! ## Texts that cannot overlap -/

/-- The second text can begin inside the first one: from some place in the first on, the one is the front of the
other. -/
def BeginsIn (s t : List Char) : Prop := ∃ rest, rest <:+ s ∧ rest ≠ [] ∧ (rest <+: t ∨ t <+: rest)

/-- Wherever the two occur in a text, the one ends before the other begins. -/
def Apart (s t : List Char) : Prop := ¬BeginsIn s t ∧ ¬BeginsIn t s

theorem not_beginsIn_nil (t : List Char) : ¬BeginsIn [] t := by
  rintro ⟨rest, hrest, hne, -⟩
  exact hne (List.suffix_nil.1 hrest)

/-- A text begins at the front of another one or further on. -/
theorem beginsIn_cons_iff {c : Char} {s t : List Char} :
    BeginsIn (c :: s) t ↔ (c :: s <+: t ∨ t <+: c :: s) ∨ BeginsIn s t := by
  constructor
  · rintro ⟨rest, hrest, hne, hfront⟩
    rcases List.suffix_cons_iff.1 hrest with rfl | hrest
    · exact .inl hfront
    · exact .inr ⟨rest, hrest, hne, hfront⟩
  · rintro (hfront | ⟨rest, hrest, hne, hfront⟩)
    · exact ⟨c :: s, List.suffix_refl _, List.cons_ne_nil c s, hfront⟩
    · exact ⟨rest, hrest.trans (List.suffix_cons c s), hne, hfront⟩

/-- A text in which another one cannot begin does not stand where that one does. -/
theorem not_prefix_append {s t : List Char} (hs : s ≠ []) (h : ¬BeginsIn s t) (r : List Char) : ¬s <+: t ++ r := by
  intro hfront
  exact h ⟨s, List.suffix_refl s, hs, List.prefix_or_prefix_of_prefix hfront (List.prefix_append t r)⟩

/-- A text that cannot begin inside the one at the front occurs behind that one. -/
theorem infix_of_infix_append {s t r : List Char} (h : ¬BeginsIn t s) (hin : s <:+: t ++ r) : s <:+: r := by
  induction t with
  | nil => exact hin
  | cons c t ih =>
    rw [beginsIn_cons_iff, not_or] at h
    rcases List.infix_cons_iff.1 hin with hfront | hbehind
    · exact absurd (List.prefix_or_prefix_of_prefix (List.prefix_append (c :: t) r) hfront) h.1
    · exact ih h.2 hbehind

/-- Of two texts without a character in common none begins inside the other. -/
theorem not_beginsIn_of_disjoint {s t : List Char} (ht : t ≠ []) (h : ∀ c ∈ t, c ∉ s) : ¬BeginsIn s t := by
  rintro ⟨rest, hrest, hne, hfront⟩
  obtain ⟨c, rest, rfl⟩ := List.exists_cons_of_ne_nil hne
  obtain ⟨d, t, rfl⟩ := List.exists_cons_of_ne_nil ht
  have hsame : d = c := by
    rcases hfront with hfront | hfront
    · exact (List.cons_prefix_cons.1 hfront).1.symm
    · exact (List.cons_prefix_cons.1 hfront).1
  refine h d List.mem_cons_self ?_
  rw [hsame]
  exact hrest.subset List.mem_cons_self

/-- Two texts without a character in common do not overlap. -/
theorem Apart.of_disjoint {s t : List Char} (hs : s ≠ []) (ht : t ≠ []) (h : ∀ c ∈ s, c ∉ t) : Apart s t :=
  ⟨not_beginsIn_of_disjoint ht fun c hc hmem => h c hmem hc, not_beginsIn_of_disjoint hs h⟩

variable {pat new : List Char}

/-! ## What replacing brings in -/

/-- A text in which what is put in cannot begin is at the front only if it was there before. -/
theorem prefix_of_prefix_replaceFrom {v : List Char} (h : ¬BeginsIn v new) {s : List Char}
    (hfront : v <+: replaceFrom pat new 0 s) :
    v <+: s := by
  induction v generalizing s with
  | nil => exact List.nil_prefix
  | cons c v ih =>
    cases s with
    | nil => exact hfront
    | cons d s =>
      rw [replaceFrom] at hfront
      split at hfront
      · exact absurd hfront (not_prefix_append (List.cons_ne_nil c v) h _)
      · obtain ⟨rfl, hbehind⟩ := List.cons_prefix_cons.1 hfront
        rw [beginsIn_cons_iff, not_or] at h
        exact List.cons_prefix_cons.2 ⟨rfl, ih h.2 hbehind⟩

/-- A text that does not overlap with what is put in occurs only if it occurred before, wherever replacing goes on. -/
theorem infix_of_infix_replaceFrom {v : List Char} (h : Apart v new) {s : List Char} (skip : Nat)
    (hin : v <:+: replaceFrom pat new skip s) : v <:+: s := by
  induction s generalizing skip with
  | nil => rwa [replaceFrom] at hin
  | cons c s ih =>
    cases skip with
    | succ skip =>
      rw [replaceFrom] at hin
      exact List.infix_cons (ih skip hin)
    | zero =>
      have hwhole : v <+: replaceFrom pat new 0 (c :: s) → v <+: c :: s := prefix_of_prefix_replaceFrom h.1
      rw [replaceFrom] at hin hwhole
      split at hin
      · exact List.infix_cons (ih _ (infix_of_infix_append h.2 hin))
      · next hnot =>
        rw [if_neg hnot] at hwhole
        exact List.infix_cons_iff.2 ((List.infix_cons_iff.1 hin).imp hwhole (ih 0))

/-- Replacing brings no text in that does not overlap with what is put in. -/
theorem infix_of_infix_replaceAll {v : List Char} (h : Apart v new) {s : List Char}
    (hin : v <:+: replaceAll pat new s) : v <:+: s :=
  infix_of_infix_replaceFrom h 0 hin

/-- What is replaced by something that it does not overlap with occurs no more, wherever replacing goes on. -/
theorem not_infix_replaceFrom (hpat : pat ≠ []) (h : Apart pat new) (s : List Char) (skip : Nat) :
    ¬pat <:+: replaceFrom pat new skip s := by
  induction s generalizing skip with
  | nil =>
    rw [replaceFrom, List.infix_nil]
    exact hpat
  | cons c s ih =>
    cases skip with
    | succ skip =>
      rw [replaceFrom]
      exact ih skip
    | zero =>
      intro hin
      have hwhole : pat <+: replaceFrom pat new 0 (c :: s) → pat <+: c :: s := prefix_of_prefix_replaceFrom h.1
      rw [replaceFrom] at hin hwhole
      split at hin
      · exact ih _ (infix_of_infix_append h.2 hin)
      · next hnot =>
        rw [if_neg hnot] at hwhole
        rcases List.infix_cons_iff.1 hin with hfront | hbehind
        · exact hnot (List.isPrefixOf_iff_prefix.2 (hwhole hfront))
        · exact ih 0 hbehind

/-- What is replaced by something that it does not overlap with occurs no more. -/
theorem not_infix_replaceAll (hpat : pat ≠ []) (h : Apart pat new) (s : List Char) : ¬pat <:+: replaceAll pat new s :=
  not_infix_replaceFrom hpat h s 0

/-! ## Replacing step by step -/

/-- What is left of an occurrence that has been replaced is passed over. -/
theorem replaceFrom_eq_drop (skip : Nat) (s : List Char) :
    replaceFrom pat new skip s = replaceAll pat new (s.drop skip) := by
  induction s generalizing skip with
  | nil => cases skip <;> simp [replaceAll, replaceFrom]
  | cons c s ih =>
    cases skip with
    | zero => rfl
    | succ skip => rw [replaceFrom, ih, List.drop_succ_cons]

/-- An occurrence at the front is replaced. -/
theorem replaceAll_append (hpat : pat ≠ []) (s : List Char) :
    replaceAll pat new (pat ++ s) = new ++ replaceAll pat new s := by
  obtain ⟨c, r, rfl⟩ := List.exists_cons_of_ne_nil hpat
  have hfront : (c :: r).isPrefixOf (c :: (r ++ s)) = true := by
    rw [List.isPrefixOf_iff_prefix, ← List.cons_append]
    exact List.prefix_append _ _
  rw [replaceAll, List.cons_append, replaceFrom, if_pos hfront, replaceFrom_eq_drop]
  simp

/-- A character that no occurrence begins with is kept. -/
theorem replaceAll_cons {c : Char} {s : List Char} (h : ¬pat <+: c :: s) :
    replaceAll pat new (c :: s) = c :: replaceAll pat new s := by
  rw [← List.isPrefixOf_iff_prefix] at h
  rw [replaceAll, replaceFrom, if_neg h]
  rfl

/-- Characters that do not occur in what is replaced are kept. -/
theorem replaceAll_append_of_disjoint (hpat : pat ≠ []) {front : List Char} (h : ∀ c ∈ pat, c ∉ front) (s : List Char) :
    replaceAll pat new (front ++ s) = front ++ replaceAll pat new s := by
  induction front with
  | nil => rfl
  | cons d front ih =>
    have hnot : ¬pat <+: d :: (front ++ s) :=
      not_prefix_append hpat (Apart.of_disjoint hpat (List.cons_ne_nil d front) h).1 s
    rw [List.cons_append, replaceAll_cons hnot, ih fun c hc hmem => h c hc (List.mem_cons_of_mem _ hmem),
      List.cons_append]

/-- A text in which nothing is to be replaced stays as it is. -/
theorem replaceAll_eq_self {s : List Char} (h : ¬pat <:+: s) : replaceAll pat new s = s := by
  induction s with
  | nil => rfl
  | cons c s ih =>
    rw [List.infix_cons_iff, not_or] at h
    rw [replaceAll_cons h.1, ih h.2]

/-- Replacing a text by itself changes nothing. -/
theorem replaceAll_self (hpat : pat ≠ []) (s : List Char) : replaceAll pat pat s = s := by
  induction hlength : s.length using Nat.strongRecOn generalizing s with
  | ind n ih =>
    subst hlength
    by_cases hfront : pat <+: s
    · obtain ⟨r, rfl⟩ := hfront
      have hpos : 0 < pat.length := List.length_pos_iff.2 hpat
      rw [replaceAll_append hpat, ih r.length (by rw [List.length_append]; omega) r rfl]
    · cases s with
      | nil => rfl
      | cons c s => rw [replaceAll_cons hfront, ih s.length (Nat.lt_succ_self _) s rfl]

/-! ## The first of several marks -/

/-- Behind `front` stands one of the marks, and none of them stands earlier. -/
def IsFirst (marks : List (List Char)) (front mark back : List Char) : Prop :=
  mark ∈ marks ∧ ∀ front' mark' back', mark' ∈ marks → front' ++ mark' ++ back' = front ++ mark ++ back →
    front.length ≤ front'.length

namespace IsFirst

variable {marks : List (List Char)} {front mark back : List Char} {c : Char}

/-- A mark that the text begins with is the first one. -/
theorem nil (h : mark ∈ marks) : IsFirst marks [] mark back := ⟨h, fun _ _ _ _ _ => Nat.zero_le _⟩

/-- Without its first character the text has the same first mark. -/
theorem tail (h : IsFirst marks (c :: front) mark back) : IsFirst marks front mark back := by
  refine ⟨h.1, fun front' mark' back' hmem heq => ?_⟩
  have hle := h.2 (c :: front') mark' back' hmem (congrArg (c :: ·) heq)
  exact Nat.le_of_succ_le_succ hle

/-- A text that has a character before its first mark begins with none. -/
theorem not_prefix (h : IsFirst marks (c :: front) mark back) {mark' : List Char} (hmem : mark' ∈ marks) :
    ¬mark' <+: c :: (front ++ mark ++ back) := by
  rintro ⟨back', heq⟩
  exact Nat.not_succ_le_zero _ (h.2 [] mark' back' hmem heq)

/-- A character before which no mark begins stands before the first one. -/
theorem cons (h : IsFirst marks front mark back) (hnot : ∀ mark' ∈ marks, ¬mark' <+: c :: (front ++ mark ++ back)) :
    IsFirst marks (c :: front) mark back := by
  refine ⟨h.1, fun front' mark' back' hmem heq => ?_⟩
  cases front' with
  | nil => exact absurd ⟨back', heq⟩ (hnot mark' hmem)
  | cons d front' => exact Nat.succ_le_succ (h.2 front' mark' back' hmem (List.tail_eq_of_cons_eq heq))

/-- A text that has marks has a first one. -/
theorem exists_of_infix {s : List Char} (hs : ∃ mark ∈ marks, mark <:+: s) :
    ∃ front mark back, s = front ++ mark ++ back ∧ IsFirst marks front mark back := by
  induction s with
  | nil =>
    obtain ⟨mark, hmem, hin⟩ := hs
    exact ⟨[], mark, [], by rw [List.infix_nil.1 hin]; rfl, nil hmem⟩
  | cons c s ih =>
    by_cases hfront : ∃ mark ∈ marks, mark <+: c :: s
    · obtain ⟨mark, hmem, back, heq⟩ := hfront
      exact ⟨[], mark, back, heq.symm, nil hmem⟩
    · obtain ⟨mark, hmem, hin⟩ := hs
      have hrest : mark <:+: s := (List.infix_cons_iff.1 hin).resolve_left fun h => hfront ⟨mark, hmem, h⟩
      obtain ⟨front, mark', back, rfl, hfirst⟩ := ih ⟨mark, hmem, hrest⟩
      exact ⟨c :: front, mark', back, rfl, hfirst.cons fun m hm h => hfront ⟨m, hm, h⟩⟩

/-- Among marks of one length there is but one first. -/
theorem unique {size : Nat} (hsize : ∀ mark ∈ marks, mark.length = size) {front' mark' back' : List Char}
    (h : IsFirst marks front mark back) (h' : IsFirst marks front' mark' back')
    (heq : front ++ mark ++ back = front' ++ mark' ++ back') : front = front' ∧ mark = mark' ∧ back = back' := by
  have hfront : front.length = front'.length :=
    Nat.le_antisymm (h.2 front' mark' back' h'.1 heq.symm) (h'.2 front mark back h.1 heq)
  have hmark : mark.length = mark'.length := (hsize mark h.1).trans (hsize mark' h'.1).symm
  obtain ⟨hboth, hback⟩ := List.append_inj heq (by rw [List.length_append, List.length_append, hfront, hmark])
  obtain ⟨rfl, rfl⟩ := List.append_inj hboth hfront
  exact ⟨rfl, rfl, hback⟩

/-- Among marks of one length the first one stays the first, whatever follows the text. -/
theorem append {size : Nat} (hsize : ∀ mark ∈ marks, mark.length = size) (h : IsFirst marks front mark back)
    (t : List Char) :
    IsFirst marks front mark (back ++ t) := by
  refine ⟨h.1, ?_⟩
  intro front' mark' back' hmem heq
  apply Nat.le_of_not_lt
  intro hlt
  -- a mark that begins in front of the first one ends within the text as it was
  have hfits : (front' ++ mark').length ≤ (front ++ mark ++ back).length := by
    simp only [List.length_append, hsize mark' hmem, hsize mark h.1]
    omega
  rw [← List.append_assoc] at heq
  obtain ⟨rest, hrest⟩ := List.prefix_of_prefix_length_le ⟨back', heq⟩ (List.prefix_append _ t) hfits
  exact absurd (h.2 front' mark' rest hmem hrest) (Nat.not_le_of_lt hlt)

end IsFirst

/-! ## Parts between separators -/

/-- A text is cut at its separators. -/
theorem splitAt_eq_splitOn {α : Type} [DecidableEq α] (sep : α) (l : List α) : splitAt sep l = l.splitOn sep := by
  induction l with
  | nil => rfl
  | cons c r ih =>
    rw [splitAt, List.splitOn_cons_eq_if_modifyHead, ih]
    simp only [beq_iff_eq]
    split
    · rfl
    · obtain ⟨first, rest, heq⟩ := List.exists_cons_of_ne_nil (List.splitOn_ne_nil sep r)
      rw [heq]
      rfl

/-! ## Bytes -/

/-- The bytes of a text are those of its parts. -/
theorem utf8Length_append (s t : List Char) : utf8Length (s ++ t) = utf8Length s + utf8Length t := by
  induction s with
  | nil => rw [List.nil_append, utf8Length, Nat.zero_add]
  | cons c s ih => rw [List.cons_append, utf8Length, utf8Length, ih, Nat.add_assoc]

/-- A text without bytes has no characters. -/
theorem eq_nil_of_utf8Length {s : List Char} (h : utf8Length s = 0) : s = [] := by
  cases s with
  | nil => rfl
  | cons c s =>
    have hsize := c.utf8Size_pos
    simp only [utf8Length] at h
    omega

/-- A text that occurs in another one has fewer bytes, or is the same text. -/
theorem utf8Length_lt_of_infix {s t : List Char} (h : s <:+: t) (hne : s ≠ t) : utf8Length s < utf8Length t := by
  obtain ⟨front, back, rfl⟩ := h
  simp only [utf8Length_append]
  refine Nat.lt_of_not_le fun hle => hne ?_
  have hfront : front = [] := eq_nil_of_utf8Length (by omega)
  have hback : back = [] := eq_nil_of_utf8Length (by omega)
  rw [hfront, hback, List.nil_append, List.append_nil]

end SnapshotLedger.Text
