import SnapshotLedger.Proofs.Answers
import SnapshotLedger.Proofs.Json.Numeral
import SnapshotLedger.Proofs.Json.Strings

/-!
# Documents are read back

What `compact` writes, `read` reads, unless it is nested too deeply: of any document whose integers are words and whose
binary numbers are finite some document is read, without strings that were not written (`exists_read_compact`), and a
document without binary numbers, in whose objects every key stands once, comes back as it was (`read_compact`).
-/

namespace SnapshotLedger.Json

mutual

/-- The levels of arrays and objects in a document. -/
def nesting : Json → Nat
  | null | bool _ | integer _ | float _ | string _ => 0
  | array vs => nestingItems vs + 1
  | object ms => nestingMembers ms + 1

/-- The levels in the deepest of some items. -/
def nestingItems : List Json → Nat
  | [] => 0
  | v :: vs => max (nesting v) (nestingItems vs)

/-- The levels in the deepest of some members. -/
def nestingMembers : List (String × Json) → Nat
  | [] => 0
  | (_, v) :: ms => max (nesting v) (nestingMembers ms)

end

mutual

/-- No number is a binary one, every integer is a signed word, and no object has a key twice. -/
def Plain : Json → Prop
  | null | bool _ | string _ => True
  | integer n => fitsSigned n = true
  | float _ => False
  | array vs => PlainItems vs
  | object ms => (ms.map Prod.fst).Nodup ∧ PlainMembers ms

/-- All items are plain. -/
def PlainItems : List Json → Prop
  | [] => True
  | v :: vs => Plain v ∧ PlainItems vs

/-- The values of all members are plain. -/
def PlainMembers : List (String × Json) → Prop
  | [] => True
  | (_, v) :: ms => Plain v ∧ PlainMembers ms

end

mutual

/-- Every integer is a word, signed or not, and every binary number is finite. -/
def Legible : Json → Prop
  | null | bool _ | string _ => True
  | integer n => leastInteger ≤ n ∧ n ≤ greatestUnsigned
  | float x => x.isFinite = true
  | array vs => LegibleItems vs
  | object ms => LegibleMembers ms

/-- All items are legible. -/
def LegibleItems : List Json → Prop
  | [] => True
  | v :: vs => Legible v ∧ LegibleItems vs

/-- The values of all members are legible. -/
def LegibleMembers : List (String × Json) → Prop
  | [] => True
  | (_, v) :: ms => Legible v ∧ LegibleMembers ms

end

mutual

/-- Plain documents are legible. -/
theorem Plain.legible : {v : Json} → v.Plain → v.Legible
  | null, _ | bool _, _ | string _, _ => by simp only [Legible]
  | integer n, h => by
    simp only [Plain, fitsSigned, Bool.and_eq_true, decide_eq_true_eq] at h
    simp only [Legible]
    exact ⟨h.1, Int.le_trans h.2 (by decide)⟩
  | float _, h => by simp only [Plain] at h
  | array vs, h => by
    simp only [Plain] at h
    simp only [Legible]
    exact legibleItems_of_plain h
  | object ms, h => by
    simp only [Plain] at h
    simp only [Legible]
    exact legibleMembers_of_plain h.2

/-- Plain items are legible. -/
theorem legibleItems_of_plain : {vs : List Json} → PlainItems vs → LegibleItems vs
  | [], _ => trivial
  | _ :: _, h => ⟨h.1.legible, legibleItems_of_plain h.2⟩

/-- Plain values of members are legible. -/
theorem legibleMembers_of_plain : {ms : List (String × Json)} → PlainMembers ms → LegibleMembers ms
  | [], _ => trivial
  | (_, _) :: _, h => ⟨h.1.legible, legibleMembers_of_plain h.2⟩

end

/-! ## Keys that stand once -/

/-- A new key goes to the end. -/
theorem put_of_not_mem {key : String} {ms : List (String × Json)} (h : key ∉ ms.map Prod.fst) (value : Json) :
    put key value ms = ms ++ [(key, value)] := by
  induction ms with
  | nil => rfl
  | cons e r ih =>
    rw [List.map_cons, List.mem_cons, not_or] at h
    rw [put, if_neg (Ne.symm h.1), ih h.2, List.cons_append]

/-- Members whose keys stand once are kept as they are. -/
theorem ofMembers_of_nodup {ms : List (String × Json)} (h : (ms.map Prod.fst).Nodup) : ofMembers ms = ms := by
  have hfold : ∀ done : List (String × Json), ((done ++ ms).map Prod.fst).Nodup →
      ms.foldl (fun m e => put e.1 e.2 m) done = done ++ ms := by
    induction ms with
    | nil => intro done _; rw [List.foldl_nil, List.append_nil]
    | cons e r ih =>
      intro done hdone
      have hnew : e.1 ∉ done.map Prod.fst := by
        rw [List.map_append, List.map_cons, List.nodup_append] at hdone
        exact fun hmem => hdone.2.2 _ hmem _ List.mem_cons_self rfl
      rw [List.foldl_cons, put_of_not_mem hnew]
      have hnext := ih (List.nodup_cons.1 h).2 (done ++ [e]) (by rw [List.append_assoc]; exact hdone)
      rw [hnext, List.append_assoc]
      rfl
  exact hfold [] h

/-! ## What stands in front -/

/-- A character that ends a number when it is in front. -/
theorem endsNumber_cons {c : Char} (rest : List Char) (hdigit : c.isDigit = false) (hpoint : c ≠ '.') (hsmall : c ≠ 'e')
    (hlarge : c ≠ 'E') : EndsNumber (c :: rest) := by
  intro d r heq
  obtain ⟨rfl, -⟩ := List.cons.inj heq
  exact ⟨hdigit, hpoint, hsmall, hlarge⟩

/-- Nothing follows at the end. -/
theorem endsNumber_nil : EndsNumber [] := fun _ _ h => nomatch h

/-- After an item, a comma or a bracket follows. -/
theorem endsNumber_compactItems (vs : List Json) (rest : List Char) : EndsNumber (compactItems vs ++ rest) := by
  cases vs with
  | nil => exact endsNumber_cons _ rfl (by decide) (by decide) (by decide)
  | cons v vs => exact endsNumber_cons _ rfl (by decide) (by decide) (by decide)

/-- After a member, a comma or a brace follows. -/
theorem endsNumber_compactMembers (ms : List (String × Json)) (rest : List Char) :
    EndsNumber (compactMembers ms ++ rest) := by
  cases ms with
  | nil => exact endsNumber_cons _ rfl (by decide) (by decide) (by decide)
  | cons e ms => exact endsNumber_cons _ rfl (by decide) (by decide) (by decide)

/-- A character that is no blank is not passed over. -/
theorem skipSpace_cons {c : Char} (h : isSpace c = false) (rest : List Char) : skipSpace (c :: rest) = c :: rest := by
  rw [skipSpace, List.dropWhile_cons_of_neg (by rw [h]; exact Bool.false_ne_true)]

/-- A digit is no blank. -/
theorem isSpace_of_isDigit {c : Char} (h : c.isDigit = true) : isSpace c = false := by
  have hblank : ∀ b : Char, b.isDigit = false → c ≠ b := fun b hb heq => by rw [heq, hb] at h; cases h
  simp only [isSpace, hblank ' ' rfl, hblank '\n' rfl, hblank '\t' rfl, hblank '\r' rfl, decide_false, Bool.or_self]

/-- The text of an integer opens with a sign or a digit. -/
theorem head_integerText (n : Int) : ∃ c r, integerText n = c :: r ∧ (c = '-' ∨ c.isDigit = true) := by
  unfold integerText
  split
  · exact ⟨'-', _, rfl, .inl rfl⟩
  · obtain ⟨c, r, h⟩ := List.exists_cons_of_ne_nil (Nat.toDigits_ne_nil (b := 10) (n := n.natAbs))
    exact ⟨c, r, h, .inr (Text.isDigit_of_mem_toDigits (h ▸ List.mem_cons_self))⟩

/-- The text of a binary number opens with a sign, a digit or a letter. -/
theorem head_text (x : Binary64) :
    ∃ c r, NumberLayout.exchange.text x = c :: r ∧ (c = '-' ∨ c.isDigit = true ∨ c = 'N' ∨ c = 'i') := by
  obtain ⟨c, r, hdigits, hc⟩ := head_unsigned x
  unfold NumberLayout.text
  split
  · exact ⟨'N', _, rfl, by simp⟩
  dsimp only
  split
  · exact ⟨'-', _, rfl, by simp⟩
  split
  · exact ⟨c, r, hdigits, by simp [hc]⟩
  · exact ⟨'i', _, rfl, by simp⟩

/-- A document opens with no blank and with no closing bracket. -/
theorem head_compactChars (v : Json) : ∃ c r, compactChars v = c :: r ∧ isSpace c = false ∧ c ≠ ']' := by
  have hdigit : ∀ c : Char, c.isDigit = true → isSpace c = false ∧ c ≠ ']' := by
    intro c hc
    exact ⟨isSpace_of_isDigit hc, fun heq => by rw [heq] at hc; cases hc⟩
  cases v with
  | null => exact ⟨_, _, rfl, rfl, by decide⟩
  | bool b => cases b <;> exact ⟨_, _, rfl, rfl, by decide⟩
  | float x =>
    obtain ⟨c, r, hc, rfl | hdig | rfl | rfl⟩ := head_text x
    · exact ⟨'-', r, hc, rfl, by decide⟩
    · exact ⟨c, r, hc, hdigit c hdig⟩
    · exact ⟨'N', r, hc, rfl, by decide⟩
    · exact ⟨'i', r, hc, rfl, by decide⟩
  | string s => exact ⟨_, _, rfl, rfl, by decide⟩
  | array vs => cases vs <;> exact ⟨_, _, rfl, rfl, by decide⟩
  | object ms => cases ms <;> exact ⟨_, _, rfl, rfl, by decide⟩
  | integer n =>
    obtain ⟨c, r, hc, rfl | hdig⟩ := head_integerText n
    · exact ⟨'-', r, hc, rfl, by decide⟩
    · exact ⟨c, r, hc, hdigit c hdig⟩

/-- Nothing is passed over in front of a document. -/
theorem skipSpace_compactChars (v : Json) (rest : List Char) :
    skipSpace (compactChars v ++ rest) = compactChars v ++ rest := by
  obtain ⟨c, r, hc, hspace, -⟩ := head_compactChars v
  rw [hc, List.cons_append, skipSpace_cons hspace]

/-! ## Items and members -/

/-- What may be read in the place of a document: the document itself where it is plain, and never strings that it has
not. -/
structure Restores (v w : Json) : Prop where
  same : v.Plain → w = v
  strings : ∀ s ∈ w.strings, s ∈ v.strings

/-- A document may be read as it is. -/
theorem Restores.refl (v : Json) : Restores v v := ⟨fun _ => rfl, fun _ => id⟩

/-- What is read in the place of items makes an array in the place of theirs. -/
theorem restores_array {vs ws : List Json} (h : List.Forall₂ Restores vs ws) : Restores (array vs) (array ws) := by
  have hitems : (PlainItems vs → ws = vs) ∧ ∀ s ∈ stringsItems ws, s ∈ stringsItems vs := by
    induction h with
    | nil => exact ⟨fun _ => rfl, fun _ => id⟩
    | cons hfirst _ ih =>
      refine ⟨fun hplain => by rw [hfirst.same hplain.1, ih.1 hplain.2], fun s hs => ?_⟩
      exact List.mem_append.2 ((List.mem_append.1 hs).imp (hfirst.strings s) (ih.2 s))
  refine ⟨fun hplain => ?_, hitems.2⟩
  simp only [Plain] at hplain
  rw [hitems.1 hplain]

/-- A member is read with its key. -/
def RestoresMember (e f : String × Json) : Prop := f.1 = e.1 ∧ Restores e.2 f.2

/-- What is read in the place of members makes an object in the place of theirs. -/
theorem restores_object {ms ns : List (String × Json)} (h : List.Forall₂ RestoresMember ms ns) :
    Restores (object ms) (object (ofMembers ns)) := by
  have hmembers : (PlainMembers ms → ns = ms) ∧ ∀ s ∈ stringsMembers ns, s ∈ stringsMembers ms := by
    induction h with
    | nil => exact ⟨fun _ => rfl, fun _ => id⟩
    | cons hfirst _ ih =>
      refine ⟨fun hplain => by rw [ih.1 hplain.2, Prod.ext hfirst.1 (hfirst.2.same hplain.1)], fun s hs => ?_⟩
      exact List.mem_append.2 ((List.mem_append.1 hs).imp (hfirst.2.strings s) (ih.2 s))
  refine ⟨fun hplain => ?_, fun s hs => ?_⟩
  · simp only [Plain] at hplain
    rw [hmembers.1 hplain.2, ofMembers_of_nodup hplain.1]
  · obtain ⟨e, he, hs⟩ := mem_stringsMembers.1 hs
    exact hmembers.2 s (mem_stringsMembers.2 ⟨e, mem_of_mem_ofMembers he, hs⟩)

/-- A reader makes of the text of a value something that may be read in its place. -/
def Reads (item : ValueReader) (v : Json) : Prop :=
  ∀ rest, EndsNumber rest → ∃ w, item (compactChars v ++ rest) = .ok (w, rest) ∧ Restores v w

/-- The items of an array are read one after the other. -/
theorem readItems_compactItems {item : ValueReader} (vs : List Json) {v : Json} (hitem : ∀ w ∈ v :: vs, Reads item w)
    (rest : List Char) {fuel : Nat} (hfuel : vs.length < fuel) :
    ∃ ws, readItems item fuel (compactChars v ++ (compactItems vs ++ rest)) = .ok (ws, rest) ∧
      List.Forall₂ Restores (v :: vs) ws := by
  induction vs generalizing v fuel with
  | nil =>
    obtain ⟨fuel, rfl⟩ := Nat.exists_eq_succ_of_ne_zero (Nat.ne_of_gt hfuel)
    obtain ⟨u, hu, hrestores⟩ := hitem v List.mem_cons_self _ (endsNumber_compactItems [] rest)
    refine ⟨[u], ?_, .cons hrestores .nil⟩
    rw [readItems, hu]
    rfl
  | cons w ws ih =>
    obtain ⟨fuel, rfl⟩ := Nat.exists_eq_succ_of_ne_zero (Nat.ne_of_gt (Nat.lt_of_le_of_lt (Nat.zero_le _) hfuel))
    obtain ⟨us, hrest, hothers⟩ := ih (fun u hu => hitem u (List.mem_cons_of_mem _ hu)) (Nat.lt_of_succ_lt_succ hfuel)
    obtain ⟨u, hu, hrestores⟩ := hitem v List.mem_cons_self _ (endsNumber_compactItems (w :: ws) rest)
    have hskip := skipSpace_compactChars w (compactItems ws ++ rest)
    obtain ⟨c, r, hc, -, hbracket⟩ := head_compactChars w
    refine ⟨u :: us, ?_, .cons hrestores hothers⟩
    rw [readItems, hu]
    rw [hc, List.cons_append] at hskip hrest
    simp only [compactItems, List.cons_append, List.append_assoc, bind, Except.bind,
      skipSpace_cons (c := ',') rfl, hc, hskip]
    split
    · next heq => exact absurd heq (List.cons_ne_nil _ _)
    · next heq => exact absurd (List.cons.inj heq).1 hbracket
    · rw [hrest]

/-- A member is its key and its value. -/
theorem compactMember_eq (e : String × Json) : compactMember e = stringText e.1 ++ ':' :: compactChars e.2 := by
  obtain ⟨k, v⟩ := e
  rfl

/-- The key of a member is read back. -/
theorem readString_compactMember (k : String) (v : Json) (rest : List Char) {s : List Char}
    (hs : s = compactMember (k, v) ++ rest) :
    readString (s.length + 1) (s.drop 1) = .ok (k, ':' :: compactChars v ++ rest) := by
  have hdrop : s.drop 1 = k.toList.flatMap escapedChar ++ '\"' :: (':' :: compactChars v ++ rest) := by
    rw [hs]
    simp only [compactMember, stringText, List.cons_append, List.append_assoc, List.drop_succ_cons, List.drop_zero,
      List.nil_append]
  rw [hdrop]
  exact readString_flatMap k _ (by rw [← hdrop, List.length_drop]; omega)

/-- A member is read. -/
theorem readMember_compactMember {item : ValueReader} (k : String) {v : Json} (hitem : Reads item v) {rest : List Char}
    (hrest : EndsNumber rest) {s : List Char} (hs : s = compactMember (k, v) ++ rest) :
    readString (s.length + 1) (s.drop 1) = .ok (k, ':' :: compactChars v ++ rest) ∧
      ∃ w, readMemberValue item (':' :: compactChars v ++ rest) = .ok (w, rest) ∧ Restores v w :=
  ⟨readString_compactMember k v rest hs, hitem rest hrest⟩

/-- The members of an object are read one after the other. -/
theorem readMembers_compactMembers {item : ValueReader} (ms : List (String × Json)) {e : String × Json}
    (hitem : ∀ f ∈ e :: ms, Reads item f.2) (rest : List Char) {fuel : Nat} (hfuel : ms.length < fuel) :
    ∃ ns, readMembers item fuel (compactMember e ++ (compactMembers ms ++ rest)) = .ok (ns, rest) ∧
      List.Forall₂ RestoresMember (e :: ms) ns := by
  induction ms generalizing e fuel with
  | nil =>
    obtain ⟨fuel, rfl⟩ := Nat.exists_eq_succ_of_ne_zero (Nat.ne_of_gt hfuel)
    obtain ⟨hkey, w, hvalue, hrestores⟩ :=
      readMember_compactMember e.1 (hitem e List.mem_cons_self) (endsNumber_compactMembers [] rest) rfl
    refine ⟨[(e.1, w)], ?_, .cons ⟨rfl, hrestores⟩ .nil⟩
    rw [readMembers, hkey]
    simp only [bind, Except.bind, hvalue]
    rfl
  | cons f ms ih =>
    obtain ⟨fuel, rfl⟩ := Nat.exists_eq_succ_of_ne_zero (Nat.ne_of_gt (Nat.lt_of_le_of_lt (Nat.zero_le _) hfuel))
    obtain ⟨hkey, w, hvalue, hrestores⟩ :=
      readMember_compactMember e.1 (hitem e List.mem_cons_self) (endsNumber_compactMembers (f :: ms) rest) rfl
    obtain ⟨ns, hrest, hothers⟩ := ih (fun g hg => hitem g (List.mem_cons_of_mem _ hg)) (Nat.lt_of_succ_lt_succ hfuel)
    refine ⟨(e.1, w) :: ns, ?_, .cons ⟨rfl, hrestores⟩ hothers⟩
    rw [readMembers, hkey]
    simp only [bind, Except.bind, hvalue]
    simp only [compactMember_eq, stringText, List.cons_append, List.append_assoc] at hrest
    simp only [compactMembers, compactMember_eq, stringText, List.cons_append, List.append_assoc,
      skipSpace_cons (c := ',') rfl, skipSpace_cons (c := '\"') rfl]
    rw [hrest]

/-! ## Values -/

/-- The number of items is no greater than the length of their text. -/
theorem length_le_compactItems (vs : List Json) : vs.length < (compactItems vs).length := by
  induction vs with
  | nil => exact Nat.zero_lt_one
  | cons v vs ih =>
    simp only [compactItems, List.length_cons, List.length_append]
    omega

/-- The number of members is no greater than the length of their text. -/
theorem length_le_compactMembers (ms : List (String × Json)) : ms.length < (compactMembers ms).length := by
  induction ms with
  | nil => exact Nat.zero_lt_one
  | cons e ms ih =>
    simp only [compactMembers, List.length_cons, List.length_append]
    omega

/-- What opens with a digit is read as a number. -/
theorem readValueWith_digit (inner : Option ValueReader) {c : Char} (h : c.isDigit = true) (s : List Char) :
    readValueWith inner (c :: s) = readNumeral false (c :: s) := by
  have hother : ∀ d : Char, d.isDigit = false → c ≠ d := fun d hd heq => by rw [heq, hd] at h; cases h
  rw [readValueWith, skipSpace_cons (isSpace_of_isDigit h)]
  split
  · next heq => cases heq
  · next heq => exact absurd (List.cons.inj heq).1 (hother _ rfl)
  · next heq => exact absurd (List.cons.inj heq).1 (hother _ rfl)
  · next heq => exact absurd (List.cons.inj heq).1 (hother _ rfl)
  · next heq => exact absurd (List.cons.inj heq).1 (hother _ rfl)
  · next heq => exact absurd (List.cons.inj heq).1 (hother _ rfl)
  · next heq => exact absurd (List.cons.inj heq).1 (hother _ rfl)
  · next heq => exact absurd (List.cons.inj heq).1 (hother _ rfl)
  · next heq =>
    obtain ⟨rfl, rfl⟩ := List.cons.inj heq
    rw [if_pos h]

/-- An integer that is a word is read as it is. -/
theorem reads_integer (inner : Option ValueReader) {n : Int} (least : leastInteger ≤ n)
    (greatest : n ≤ greatestUnsigned) :
    Reads (readValueWith inner) (integer n) := by
  intro rest hrest
  refine ⟨integer n, ?_, .refl _⟩
  have habs : n.natAbs ≤ greatestUnsigned := by
    unfold leastInteger at least
    unfold greatestUnsigned at greatest ⊢
    omega
  simp only [compactChars, integerText]
  split
  · next hneg =>
    have hsign : ∀ s, readValueWith inner ('-' :: s) = readNumeral true s := fun _ => rfl
    rw [List.cons_append, hsign, readNumeral_toDigits true habs hrest, readTail_integer true n.natAbs hrest]
    have hvalue : -(n.natAbs : Int) = n := by omega
    have hpos : decide (0 < n.natAbs) = true := decide_eq_true (by omega)
    simp only [hvalue, hpos, decide_eq_true least, Bool.not_true, Bool.false_eq_true, if_false, Bool.and_self,
      if_true, ge_iff_le]
  · next hpos =>
    have hread := readNumeral_toDigits false habs hrest
    rw [readTail_integer false n.natAbs hrest] at hread
    have hvalue : (n.natAbs : Int) = n := by omega
    obtain ⟨c, r, hc, -, hdigits, -⟩ := Text.exists_toDigits n.natAbs
    rw [hc, List.cons_append] at hread ⊢
    rw [readValueWith_digit inner (hdigits c List.mem_cons_self), hread, hvalue]
    rfl

/-- Some number is read from the text of a finite one. -/
theorem reads_float (inner : Option ValueReader) {x : Binary64} (hx : x.isFinite = true) :
    Reads (readValueWith inner) (float x) := by
  intro rest hrest
  have hnumber : x.isNaN = false := by
    rw [Binary64.isFinite, bne_iff_ne] at hx
    rw [Binary64.isNaN, beq_false_of_ne hx, Bool.false_and]
  have hrestores : ∀ y, Restores (float x) (float y) := fun y => ⟨by simp [Plain], fun _ => id⟩
  unfold compactChars NumberLayout.text
  rw [hnumber, if_neg Bool.false_ne_true]
  dsimp only
  rw [if_pos hx]
  split
  · obtain ⟨y, hy⟩ := readsFloat_unsigned true hx hrest
    exact ⟨float y, hy, hrestores y⟩
  · obtain ⟨y, hy⟩ := readsFloat_unsigned false hx hrest
    obtain ⟨c, r, hc, hdigit⟩ := head_unsigned x
    refine ⟨float y, ?_, hrestores y⟩
    rw [hc, List.cons_append] at hy ⊢
    rw [readValueWith_digit inner hdigit, hy]

/-- A string is read as it is. -/
theorem reads_string (inner : Option ValueReader) (s : String) : Reads (readValueWith inner) (string s) := by
  intro rest _
  refine ⟨string s, ?_, .refl _⟩
  have hread := readString_flatMap s rest (Nat.le_add_right _ 1)
  simp only [compactChars, stringText, List.cons_append, List.append_assoc, List.nil_append]
  rw [readValueWith, skipSpace_cons rfl]
  simp only [hread, bind, Except.bind]

/-- An array is read when its items are. -/
theorem reads_array {item : ValueReader} {vs : List Json} (hitem : ∀ v ∈ vs, Reads item v) :
    Reads (readValueWith (some item)) (array vs) := by
  intro rest _
  cases vs with
  | nil => exact ⟨array [], rfl, .refl _⟩
  | cons v vs =>
    have hlen := length_le_compactItems vs
    simp only [compactChars, List.cons_append, List.append_assoc]
    have hskip := skipSpace_compactChars v (compactItems vs ++ rest)
    obtain ⟨ws, hread, hrestores⟩ := readItems_compactItems vs hitem rest
      (show vs.length < (compactChars v ++ (compactItems vs ++ rest)).length + 1 by
        simp only [List.length_append]
        omega)
    obtain ⟨c, r, hc, -, hbracket⟩ := head_compactChars v
    have hopen : ∀ s, readValueWith (some item) ('[' :: s) = readArray item (s.length + 1) s := fun _ => rfl
    refine ⟨array ws, ?_, restores_array hrestores⟩
    rw [hopen]
    rw [hc, List.cons_append] at hskip hread ⊢
    unfold readArray
    rw [hskip]
    split
    · next heq => cases heq
    · next heq => exact absurd (List.cons.inj heq).1 hbracket
    · rw [hread]
      rfl

/-- An object is read when the values of its members are. -/
theorem reads_object {item : ValueReader} {ms : List (String × Json)} (hitem : ∀ e ∈ ms, Reads item e.2) :
    Reads (readValueWith (some item)) (object ms) := by
  intro rest _
  cases ms with
  | nil => exact ⟨object [], rfl, .refl _⟩
  | cons e ms =>
    have hlen := length_le_compactMembers ms
    simp only [compactChars, List.cons_append, List.append_assoc]
    obtain ⟨ns, hread, hrestores⟩ := readMembers_compactMembers ms hitem rest
      (show ms.length < (compactMember e ++ (compactMembers ms ++ rest)).length + 1 by
        simp only [List.length_append]
        omega)
    have hopen : ∀ s, readValueWith (some item) ('{' :: s) = readObject item (s.length + 1) s := fun _ => rfl
    refine ⟨object (ofMembers ns), ?_, restores_object hrestores⟩
    rw [hopen]
    simp only [compactMember_eq, stringText, List.cons_append, List.append_assoc] at hread ⊢
    unfold readObject
    rw [skipSpace_cons rfl]
    simp only [hread, bind, Except.bind]

/-- A value reader of any depth reads one value with some reader for what is inside. -/
theorem readValue_eq (depth : Nat) : ∃ inner, readValue depth = readValueWith inner := by
  cases depth with
  | zero => exact ⟨none, rfl⟩
  | succ depth => exact ⟨some (readValue depth), rfl⟩

mutual

/-- A legible document that is not nested too deeply is read. -/
theorem reads_readValue : (v : Json) → v.Legible → ∀ {depth : Nat}, v.nesting ≤ depth → Reads (readValue depth) v
  | .null, _, depth, _ => by
    obtain ⟨inner, h⟩ := readValue_eq depth
    rw [h]
    exact fun _ _ => ⟨_, rfl, .refl _⟩
  | .bool true, _, depth, _ => by
    obtain ⟨inner, h⟩ := readValue_eq depth
    rw [h]
    exact fun _ _ => ⟨_, rfl, .refl _⟩
  | .bool false, _, depth, _ => by
    obtain ⟨inner, h⟩ := readValue_eq depth
    rw [h]
    exact fun _ _ => ⟨_, rfl, .refl _⟩
  | .integer n, hlegible, depth, _ => by
    obtain ⟨inner, h⟩ := readValue_eq depth
    simp only [Legible] at hlegible
    rw [h]
    exact reads_integer inner hlegible.1 hlegible.2
  | .float x, hlegible, depth, _ => by
    obtain ⟨inner, h⟩ := readValue_eq depth
    simp only [Legible] at hlegible
    rw [h]
    exact reads_float inner hlegible
  | .string s, _, depth, _ => by
    obtain ⟨inner, h⟩ := readValue_eq depth
    rw [h]
    exact reads_string inner s
  | .array vs, hlegible, depth, hdepth => by
    simp only [Legible] at hlegible
    simp only [nesting] at hdepth
    obtain ⟨depth, rfl⟩ := Nat.exists_eq_succ_of_ne_zero (Nat.ne_of_gt (Nat.lt_of_lt_of_le (Nat.succ_pos _) hdepth))
    exact reads_array (reads_items vs hlegible (Nat.le_of_succ_le_succ hdepth))
  | .object ms, hlegible, depth, hdepth => by
    simp only [Legible] at hlegible
    simp only [nesting] at hdepth
    obtain ⟨depth, rfl⟩ := Nat.exists_eq_succ_of_ne_zero (Nat.ne_of_gt (Nat.lt_of_lt_of_le (Nat.succ_pos _) hdepth))
    exact reads_object (reads_members ms hlegible (Nat.le_of_succ_le_succ hdepth))

/-- Legible items that are not nested too deeply are read. -/
theorem reads_items : (vs : List Json) → LegibleItems vs → ∀ {depth : Nat}, nestingItems vs ≤ depth →
    ∀ v ∈ vs, Reads (readValue depth) v
  | [], _, _, _, _, hv => absurd hv List.not_mem_nil
  | v :: vs, hlegible, depth, hdepth, w, hw => by
    simp only [nestingItems] at hdepth
    rcases List.mem_cons.1 hw with heq | hw
    · rw [heq]
      exact reads_readValue v hlegible.1 (Nat.le_trans (Nat.le_max_left _ _) hdepth)
    · exact reads_items vs hlegible.2 (Nat.le_trans (Nat.le_max_right _ _) hdepth) w hw

/-- Members with legible values that are not nested too deeply are read. -/
theorem reads_members : (ms : List (String × Json)) → LegibleMembers ms → ∀ {depth : Nat}, nestingMembers ms ≤ depth →
    ∀ e ∈ ms, Reads (readValue depth) e.2
  | [], _, _, _, _, he => absurd he List.not_mem_nil
  | (k, v) :: ms, hlegible, depth, hdepth, e, he => by
    simp only [nestingMembers] at hdepth
    rcases List.mem_cons.1 he with heq | he
    · rw [heq]
      exact reads_readValue v hlegible.1 (Nat.le_trans (Nat.le_max_left _ _) hdepth)
    · exact reads_members ms hlegible.2 (Nat.le_trans (Nat.le_max_right _ _) hdepth) e he

end

/-- From the text of a legible document something is read that may be read in its place, unless it is nested too
deeply. -/
theorem exists_read_compact {v : Json} (hlegible : v.Legible) (hdepth : v.nesting ≤ deepest) :
    ∃ w, read v.compact = .ok w ∧ Restores v w := by
  obtain ⟨w, hread, hrestores⟩ := reads_readValue v hlegible hdepth [] endsNumber_nil
  rw [List.append_nil] at hread
  refine ⟨w, ?_, hrestores⟩
  simp only [read, compact, String.toList_ofList, readChars, hread, bind, Except.bind]
  rfl

/-- A plain document comes back from its text, unless it is nested too deeply. -/
theorem read_compact {v : Json} (hplain : v.Plain) (hdepth : v.nesting ≤ deepest) : read v.compact = .ok v := by
  obtain ⟨w, hread, hrestores⟩ := exists_read_compact hplain.legible hdepth
  rw [hread, hrestores.same hplain]

/-- Behind an opening brace nothing but an object is read. -/
theorem exists_object_of_readObject {item : ValueReader} {fuel : Nat} {s rest : List Char} {v : Json}
    (h : readObject item fuel s = .ok (v, rest)) : ∃ ms, v = object ms := by
  unfold readObject at h
  split at h
  · cases h
  · cases h
    exact ⟨[], rfl⟩
  · obtain ⟨⟨ms, behind⟩, -, h⟩ := bind_eq_ok h
    cases h
    exact ⟨_, rfl⟩
  · cases h

/-- From the text of an object nothing but an object is read. -/
theorem exists_object_of_read {ms : List (String × Json)} {w : Json} (h : read (object ms).compact = .ok w) :
    ∃ ns, w = object ns := by
  obtain ⟨s, hs⟩ : ∃ s, compactChars (object ms) = '{' :: s := by
    cases ms <;> exact ⟨_, rfl⟩
  have hopen : readValue deepest ('{' :: s) = readObject (readValue 126) (s.length + 1) s := rfl
  simp only [read, compact, String.toList_ofList, hs] at h
  split at h
  · next v hread =>
    cases h
    obtain ⟨⟨u, rest⟩, hvalue, hread⟩ := bind_eq_ok hread
    dsimp only at hread
    split at hread
    · cases hread
      exact exists_object_of_readObject (hopen.symm.trans hvalue)
    · cases hread
  · cases h

end SnapshotLedger.Json
