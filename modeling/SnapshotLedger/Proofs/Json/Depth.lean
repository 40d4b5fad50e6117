import SnapshotLedger.Proofs.Json.ReadBack

/-!
# Documents that are nested too deeply

What `compact` writes of a legible document is refused by `read` when the document is nested too deeply, so that
some document is read exactly when it is not (`exists_read_compact_iff`), and a plain document comes back
(`read_compact_iff`).
-/

namespace SnapshotLedger.Json

/-- A reader fails on the text of a value, whatever follows. -/
def Refuses (item : ValueReader) (v : Json) : Prop := ∀ rest, ∃ f, item (compactChars v ++ rest) = .error f

/-- What is refused is not read. -/
theorem not_reads_of_refuses {item : ValueReader} {v : Json} (h : Refuses item v) : ¬Reads item v := by
  intro hread
  obtain ⟨f, hf⟩ := h []
  obtain ⟨w, hw, -⟩ := hread [] endsNumber_nil
  rw [hw] at hf
  cases hf

/-! ## Items and members -/

/-- The items of an array are not read when the first one is refused. -/
theorem readItems_refuses_first {item : ValueReader} {v : Json} (h : Refuses item v) (vs : List Json) (rest : List Char)
    (fuel : Nat) : ∃ f, readItems item fuel (compactChars v ++ (compactItems vs ++ rest)) = .error f := by
  cases fuel with
  | zero => exact ⟨_, rfl⟩
  | succ fuel =>
    obtain ⟨f, hf⟩ := h (compactItems vs ++ rest)
    rw [readItems, hf]
    exact ⟨f, rfl⟩

/-- The items of an array are not read when one of them is refused. -/
theorem readItems_refuses {item : ValueReader} (vs : List Json) {v : Json}
    (hitem : ∀ w ∈ v :: vs, Reads item w ∨ Refuses item w) (hsome : ∃ w ∈ v :: vs, Refuses item w)
    (rest : List Char) (fuel : Nat) :
    ∃ f, readItems item fuel (compactChars v ++ (compactItems vs ++ rest)) = .error f := by
  induction vs generalizing v fuel with
  | nil =>
    obtain ⟨w, hw, hrefuses⟩ := hsome
    obtain rfl := List.mem_singleton.1 hw
    exact readItems_refuses_first hrefuses [] rest fuel
  | cons w ws ih =>
    rcases hitem v List.mem_cons_self with hread | hrefuses
    · obtain ⟨u, hu, hrefuses⟩ := hsome
      have hlater : u ∈ w :: ws := by
        rcases List.mem_cons.1 hu with rfl | hu
        · exact absurd hread (not_reads_of_refuses hrefuses)
        · exact hu
      cases fuel with
      | zero => exact ⟨_, rfl⟩
      | succ fuel =>
        obtain ⟨f, hf⟩ := ih (fun x hx => hitem x (List.mem_cons_of_mem _ hx)) ⟨u, hlater, hrefuses⟩ fuel
        have hskip := skipSpace_compactChars w (compactItems ws ++ rest)
        obtain ⟨c, r, hc, -, hbracket⟩ := head_compactChars w
        obtain ⟨x, hx, -⟩ := hread _ (endsNumber_compactItems (w :: ws) rest)
        rw [readItems, hx]
        rw [hc, List.cons_append] at hskip hf
        simp only [compactItems, List.cons_append, List.append_assoc, bind, Except.bind,
          skipSpace_cons (c := ',') rfl, hc, hskip]
        split
        · exact ⟨_, rfl⟩
        · exact ⟨_, rfl⟩
        · rw [hf]
          exact ⟨f, rfl⟩
    · exact readItems_refuses_first hrefuses (w :: ws) rest fuel

/-- The members of an object are not read when the value of the first one is refused. -/
theorem readMembers_refuses_first {item : ValueReader} {e : String × Json} (h : Refuses item e.2)
    (ms : List (String × Json)) (rest : List Char) (fuel : Nat) :
    ∃ f, readMembers item fuel (compactMember e ++ (compactMembers ms ++ rest)) = .error f := by
  cases fuel with
  | zero => exact ⟨_, rfl⟩
  | succ fuel =>
    have hkey := readString_compactMember e.1 e.2 (compactMembers ms ++ rest) rfl
    obtain ⟨f, hf⟩ := h (compactMembers ms ++ rest)
    have hvalue : readMemberValue item (':' :: compactChars e.2 ++ (compactMembers ms ++ rest)) = .error f := hf
    rw [readMembers, hkey]
    simp only [bind, Except.bind, hvalue]
    exact ⟨f, rfl⟩

/-- The members of an object are not read when the value of one of them is refused. -/
theorem readMembers_refuses {item : ValueReader} (ms : List (String × Json)) {e : String × Json}
    (hitem : ∀ f ∈ e :: ms, Reads item f.2 ∨ Refuses item f.2) (hsome : ∃ f ∈ e :: ms, Refuses item f.2)
    (rest : List Char) (fuel : Nat) :
    ∃ f, readMembers item fuel (compactMember e ++ (compactMembers ms ++ rest)) = .error f := by
  induction ms generalizing e fuel with
  | nil =>
    obtain ⟨f, hf, hrefuses⟩ := hsome
    obtain rfl := List.mem_singleton.1 hf
    exact readMembers_refuses_first hrefuses [] rest fuel
  | cons m ms ih =>
    rcases hitem e List.mem_cons_self with hread | hrefuses
    · obtain ⟨u, hu, hrefuses⟩ := hsome
      have hlater : u ∈ m :: ms := by
        rcases List.mem_cons.1 hu with rfl | hu
        · exact absurd hread (not_reads_of_refuses hrefuses)
        · exact hu
      cases fuel with
      | zero => exact ⟨_, rfl⟩
      | succ fuel =>
        obtain ⟨f, hf⟩ := ih (fun x hx => hitem x (List.mem_cons_of_mem _ hx)) ⟨u, hlater, hrefuses⟩ fuel
        obtain ⟨hkey, x, hvalue, -⟩ := readMember_compactMember e.1 hread (endsNumber_compactMembers (m :: ms) rest) rfl
        rw [readMembers, hkey]
        simp only [bind, Except.bind, hvalue]
        simp only [compactMember_eq, stringText, List.cons_append, List.append_assoc] at hf
        simp only [compactMembers, compactMember_eq, stringText, List.cons_append, List.append_assoc,
          skipSpace_cons (c := ',') rfl, skipSpace_cons (c := '\"') rfl]
        rw [hf]
        exact ⟨f, rfl⟩
    · exact readMembers_refuses_first hrefuses (m :: ms) rest fuel

/-! ## Documents -/

/-- Legible items are legible each. -/
theorem legible_of_mem_items {vs : List Json} (h : LegibleItems vs) {v : Json} (hv : v ∈ vs) : v.Legible := by
  induction vs with
  | nil => exact absurd hv List.not_mem_nil
  | cons w ws ih =>
    rcases List.mem_cons.1 hv with rfl | hv
    · exact h.1
    · exact ih h.2 hv

/-- Legible members have a legible value each. -/
theorem legible_of_mem_members {ms : List (String × Json)} (h : LegibleMembers ms) {e : String × Json} (he : e ∈ ms) :
    e.2.Legible := by
  induction ms with
  | nil => exact absurd he List.not_mem_nil
  | cons f ms ih =>
    rcases List.mem_cons.1 he with rfl | he
    · exact h.1
    · exact ih h.2 he

/-- Items that are nested deeply have one among them that is. -/
theorem exists_deep_item {vs : List Json} {depth : Nat} (h : depth < nestingItems vs) :
    ∃ v ∈ vs, depth < v.nesting := by
  induction vs with
  | nil => exact absurd h (Nat.not_lt_zero depth)
  | cons v vs ih =>
    rw [nestingItems] at h
    by_cases hv : depth < v.nesting
    · exact ⟨v, List.mem_cons_self, hv⟩
    · obtain ⟨w, hw, hdeep⟩ := ih (by omega)
      exact ⟨w, List.mem_cons_of_mem _ hw, hdeep⟩

/-- Members that are nested deeply have one among them whose value is. -/
theorem exists_deep_member {ms : List (String × Json)} {depth : Nat} (h : depth < nestingMembers ms) :
    ∃ e ∈ ms, depth < e.2.nesting := by
  induction ms with
  | nil => exact absurd h (Nat.not_lt_zero depth)
  | cons e ms ih =>
    obtain ⟨k, v⟩ := e
    rw [nestingMembers] at h
    by_cases hv : depth < v.nesting
    · exact ⟨(k, v), List.mem_cons_self, hv⟩
    · obtain ⟨f, hf, hdeep⟩ := ih (by omega)
      exact ⟨f, List.mem_cons_of_mem _ hf, hdeep⟩

/-- An array is refused when one of its items is. -/
theorem refuses_array {item : ValueReader} {vs : List Json} (hitem : ∀ v ∈ vs, Reads item v ∨ Refuses item v)
    (hsome : ∃ v ∈ vs, Refuses item v) : Refuses (readValueWith (some item)) (array vs) := by
  intro rest
  cases vs with
  | nil =>
    obtain ⟨v, hv, -⟩ := hsome
    exact absurd hv List.not_mem_nil
  | cons v vs =>
    simp only [compactChars, List.cons_append, List.append_assoc]
    have hskip := skipSpace_compactChars v (compactItems vs ++ rest)
    obtain ⟨f, hf⟩ := readItems_refuses vs hitem hsome rest ((compactChars v ++ (compactItems vs ++ rest)).length + 1)
    obtain ⟨c, r, hc, -, hbracket⟩ := head_compactChars v
    have hopen : ∀ s, readValueWith (some item) ('[' :: s) = readArray item (s.length + 1) s := fun _ => rfl
    rw [hopen]
    rw [hc, List.cons_append] at hskip hf ⊢
    unfold readArray
    rw [hskip]
    split
    · exact ⟨_, rfl⟩
    · next heq => exact absurd (List.cons.inj heq).1 hbracket
    · rw [hf]
      exact ⟨f, rfl⟩

/-- An object is refused when the value of one of its members is. -/
theorem refuses_object {item : ValueReader} {ms : List (String × Json)}
    (hitem : ∀ e ∈ ms, Reads item e.2 ∨ Refuses item e.2) (hsome : ∃ e ∈ ms, Refuses item e.2) :
    Refuses (readValueWith (some item)) (object ms) := by
  intro rest
  cases ms with
  | nil =>
    obtain ⟨e, he, -⟩ := hsome
    exact absurd he List.not_mem_nil
  | cons e ms =>
    simp only [compactChars, List.cons_append, List.append_assoc]
    obtain ⟨f, hf⟩ :=
      readMembers_refuses ms hitem hsome rest ((compactMember e ++ (compactMembers ms ++ rest)).length + 1)
    have hopen : ∀ s, readValueWith (some item) ('{' :: s) = readObject item (s.length + 1) s := fun _ => rfl
    rw [hopen]
    simp only [compactMember_eq, stringText, List.cons_append, List.append_assoc] at hf ⊢
    unfold readObject
    rw [skipSpace_cons rfl]
    simp only [hf, bind, Except.bind]
    exact ⟨f, rfl⟩

/-- Without a reader for what is inside, arrays and objects are refused. -/
theorem refuses_none {v : Json} (h : 0 < v.nesting) : Refuses (readValueWith none) v := by
  intro rest
  cases v with
  | array vs => cases vs <;> exact ⟨_, rfl⟩
  | object ms => cases ms <;> exact ⟨_, rfl⟩
  | null => exact absurd h (Nat.not_lt_zero _)
  | bool b => exact absurd h (Nat.not_lt_zero _)
  | integer n => exact absurd h (Nat.not_lt_zero _)
  | float x => exact absurd h (Nat.not_lt_zero _)
  | string s => exact absurd h (Nat.not_lt_zero _)

/-- A legible document that is nested too deeply is refused. -/
theorem refuses_readValue (depth : Nat) {v : Json} (hlegible : v.Legible) (hdeep : depth < v.nesting) :
    Refuses (readValue depth) v := by
  induction depth generalizing v with
  | zero => exact refuses_none hdeep
  | succ depth ih =>
    have heither : ∀ w : Json, w.Legible → Reads (readValue depth) w ∨ Refuses (readValue depth) w := by
      intro w hw
      by_cases hshallow : w.nesting ≤ depth
      · exact .inl (reads_readValue w hw hshallow)
      · exact .inr (ih hw (Nat.not_le.1 hshallow))
    cases v with
    | array vs =>
      simp only [Legible] at hlegible
      rw [nesting] at hdeep
      obtain ⟨w, hw, hinner⟩ := exists_deep_item (Nat.lt_of_succ_lt_succ hdeep)
      exact refuses_array (fun u hu => heither u (legible_of_mem_items hlegible hu))
        ⟨w, hw, ih (legible_of_mem_items hlegible hw) hinner⟩
    | object ms =>
      simp only [Legible] at hlegible
      rw [nesting] at hdeep
      obtain ⟨e, he, hinner⟩ := exists_deep_member (Nat.lt_of_succ_lt_succ hdeep)
      exact refuses_object (fun f hf => heither f.2 (legible_of_mem_members hlegible hf))
        ⟨e, he, ih (legible_of_mem_members hlegible he) hinner⟩
    | null => exact absurd hdeep (Nat.not_lt_zero _)
    | bool b => exact absurd hdeep (Nat.not_lt_zero _)
    | integer n => exact absurd hdeep (Nat.not_lt_zero _)
    | float x => exact absurd hdeep (Nat.not_lt_zero _)
    | string s => exact absurd hdeep (Nat.not_lt_zero _)

/-- The text of a legible document that is nested too deeply is not read. -/
theorem read_compact_fails {v : Json} (hlegible : v.Legible) (hdeep : deepest < v.nesting) :
    ∃ e, read v.compact = .error e := by
  obtain ⟨f, hf⟩ := refuses_readValue deepest hlegible hdeep []
  rw [List.append_nil] at hf
  simp only [read, compact, String.toList_ofList, readChars, hf, bind, Except.bind]
  exact ⟨_, rfl⟩

/-- Some document is read from the text of a legible one exactly when it is not nested too deeply. -/
theorem exists_read_compact_iff {v : Json} (hlegible : v.Legible) :
    (∃ w, read v.compact = .ok w) ↔ v.nesting ≤ deepest := by
  constructor
  · rintro ⟨w, hread⟩
    refine Nat.not_lt.1 fun hdeep => ?_
    obtain ⟨e, he⟩ := read_compact_fails hlegible hdeep
    rw [hread] at he
    cases he
  · intro hdepth
    obtain ⟨w, hread, -⟩ := exists_read_compact hlegible hdepth
    exact ⟨w, hread⟩

/-- What is read from the text of a legible document has no strings that it has not. -/
theorem strings_of_read_compact {v w : Json} (hlegible : v.Legible) (h : read v.compact = .ok w) :
    ∀ s ∈ w.strings, s ∈ v.strings := by
  obtain ⟨u, hread, hrestores⟩ := exists_read_compact hlegible ((exists_read_compact_iff hlegible).1 ⟨w, h⟩)
  rw [h] at hread
  rw [Except.ok.inj hread]
  exact hrestores.strings

/-- A plain document comes back from its text exactly when it is not nested too deeply. -/
theorem read_compact_iff {v : Json} (hplain : v.Plain) : read v.compact = .ok v ↔ v.nesting ≤ deepest := by
  constructor
  · intro hread
    exact (exists_read_compact_iff hplain.legible).1 ⟨v, hread⟩
  · exact read_compact hplain

end SnapshotLedger.Json
