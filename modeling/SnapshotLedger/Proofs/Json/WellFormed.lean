import SnapshotLedger.Json.Reader
import SnapshotLedger.Proofs.Answers
import SnapshotLedger.Proofs.Decimal.Binary64
import SnapshotLedger.Proofs.Json.Strings

/-!
# Documents that were read are well-formed

Whatever text a document is read from, its integers are words, its binary numbers are finite, and no object in
it has a key twice (`wellFormed_of_read`).
-/

namespace SnapshotLedger.Json

mutual

/-- Integers are words, signed or not, binary numbers are finite, and no object has a key twice. -/
def WellFormed : Json → Prop
  | null | bool _ | string _ => True
  | integer n => leastInteger ≤ n ∧ n ≤ greatestUnsigned
  | float x => x.isFinite = true
  | array vs => WellFormedItems vs
  | object ms => (ms.map Prod.fst).Nodup ∧ WellFormedMembers ms

/-- All items are well-formed. -/
def WellFormedItems : List Json → Prop
  | [] => True
  | v :: vs => WellFormed v ∧ WellFormedItems vs

/-- The values of all members are well-formed. -/
def WellFormedMembers : List (String × Json) → Prop
  | [] => True
  | (_, v) :: ms => WellFormed v ∧ WellFormedMembers ms

end

/-- Members are well-formed when the value of each of them is. -/
theorem wellFormedMembers_iff {ms : List (String × Json)} : WellFormedMembers ms ↔ ∀ e ∈ ms, e.2.WellFormed := by
  induction ms with
  | nil => exact ⟨fun _ e he => absurd he List.not_mem_nil, fun _ => trivial⟩
  | cons e ms ih =>
    obtain ⟨k, v⟩ := e
    rw [List.forall_mem_cons, ← ih]
    exact Iff.rfl

/-- Whatever is read is well-formed. -/
def Sound (answer : Except Fault (Json × List Char)) : Prop := ∀ v rest, answer = .ok (v, rest) → v.WellFormed

/-- A failure reads nothing. -/
theorem sound_error (f : Fault) : Sound (.error f) := fun _ _ h => nomatch h

/-- What is well-formed may be read. -/
theorem sound_ok {v : Json} (h : v.WellFormed) (rest : List Char) : Sound (.ok (v, rest)) := by
  intro w rest' heq
  cases heq
  exact h

/-! ## Numbers -/

/-- Significands are words. -/
theorem lt_of_le_greatestUnsigned {n : Nat} (h : n ≤ greatestUnsigned) : n < twoTo 64 :=
  Nat.lt_of_le_of_lt h (by decide)

/-- A digit is a word. -/
theorem digitValue_le {c : Char} (h : c.isDigit = true) : Text.digitValue c ≤ greatestUnsigned := by
  have hle : c.toNat ≤ 57 := by
    simp only [Char.isDigit, Bool.and_eq_true, decide_eq_true_eq] at h
    exact h.2
  exact Nat.le_trans (Nat.sub_le _ _) (Nat.le_trans hle (by decide))

/-- The digits before the point are a word. -/
theorem significand_wholeDigits {significand : Nat} (h : significand ≤ greatestUnsigned) (dropped : Nat)
    (s : List Char) :
    (wholeDigits significand dropped s).significand ≤ greatestUnsigned := by
  induction s generalizing significand dropped with
  | nil => exact h
  | cons c s ih =>
    rw [wholeDigits]
    split
    · exact h
    split
    · next hfits =>
      rw [Bool.and_eq_true] at hfits
      exact ih (of_decide_eq_true hfits.2) 0
    · exact ih h _

/-- With the digits behind the point they are still a word. -/
theorem significand_fractionDigits {significand : Nat} (h : significand ≤ greatestUnsigned) (exponent : Int)
    (full : Bool) (s : List Char) : (fractionDigits significand exponent full s).significand ≤ greatestUnsigned := by
  induction s generalizing significand exponent full with
  | nil => exact h
  | cons c s ih =>
    rw [fractionDigits]
    split
    · exact h
    split
    · next hfits =>
      rw [Bool.and_eq_true] at hfits
      exact ih (of_decide_eq_true hfits.2) _ _
    · exact ih h _ _

/-- A decimal that is read is finite. -/
theorem sound_scaled (negative : Bool) {significand : Nat} (h : significand ≤ greatestUnsigned) (exponent : Int)
    (rest : List Char) : Sound (scaled negative significand exponent rest) := by
  unfold scaled
  split
  · next x hx =>
    refine sound_ok ?_ rest
    simp only [WellFormed]
    exact Binary64.isFinite_of_ofScientific? hx (lt_of_le_greatestUnsigned h)
  · exact sound_error _

/-- A number whose exponent is out of range is a zero, if it is one at all. -/
theorem sound_outOfRange (negative vanishes : Bool) (rest rest' : List Char) :
    Sound (if vanishes then .ok (float (Binary64.zero negative), rest)
      else .error (.here .numberOutOfRange rest')) := by
  split
  · refine sound_ok ?_ _
    simp only [WellFormed]
    exact Binary64.isFinite_of_le (by rw [Binary64.exponentField_zero]; exact Nat.zero_le _)
  · exact sound_error _

/-- A number with an exponent is well-formed. -/
theorem sound_readPower (negative : Bool) {significand : Nat} (h : significand ≤ greatestUnsigned) (exponent : Int)
    (s : List Char) : Sound (readPower negative significand exponent s) := by
  unfold readPower
  dsimp only
  split
  · exact sound_error _
  · split
    · exact sound_error _
    split
    · exact sound_scaled negative h _ _
    · exact sound_outOfRange negative _ _ _

/-- A number with a fraction is well-formed. -/
theorem sound_readFraction (negative : Bool) {significand : Nat} (h : significand ≤ greatestUnsigned) (exponent : Int)
    (s : List Char) : Sound (readFraction negative significand exponent s) := by
  unfold readFraction
  split
  · exact sound_error _
  split
  · exact sound_error _
  · have hfraction := significand_fractionDigits h exponent false
    dsimp only
    split
    · exact sound_readPower negative (hfraction _) _ _
    · exact sound_readPower negative (hfraction _) _ _
    · exact sound_scaled negative (hfraction _) _ _

/-- A number is well-formed, whatever follows its digits. -/
theorem sound_readTail (negative : Bool) {n : Numeral} (h : n.significand ≤ greatestUnsigned) :
    Sound (readTail negative n) := by
  unfold readTail
  split
  · exact sound_readFraction negative h _ _
  · exact sound_readPower negative h _ _
  · exact sound_readPower negative h _ _
  split
  · exact sound_scaled negative h _ _
  split
  · refine sound_ok ?_ _
    simp only [WellFormed, leastInteger]
    omega
  split
  · next hfits =>
    rw [Bool.and_eq_true, decide_eq_true_eq, decide_eq_true_eq] at hfits
    refine sound_ok ?_ _
    simp only [WellFormed]
    exact ⟨hfits.2, by omega⟩
  · refine sound_ok ?_ _
    simp only [WellFormed]
    exact Binary64.isFinite_of_le
      (Nat.le_trans (Binary64.exponentField_ofRatio_one true (lt_of_le_greatestUnsigned h)) (by decide))

/-- A number is well-formed. -/
theorem sound_readNumeral (negative : Bool) (s : List Char) : Sound (readNumeral negative s) := by
  unfold readNumeral
  split
  · exact sound_error _
  · split
    · split
      · exact sound_error _
      · exact sound_readTail negative (Nat.zero_le _)
    · exact sound_readTail negative (Nat.zero_le _)
  · split
    · exact sound_error _
    · next c _ _ hdigit =>
      have hc : c.isDigit = true := by simpa using hdigit
      exact sound_readTail negative (significand_wholeDigits (digitValue_le hc) _ _)

/-! ## Arrays and objects -/

/-- The items read by a sound reader are well-formed. -/
theorem wellFormed_readItems {item : ValueReader} (hitem : ∀ s, Sound (item s)) {fuel : Nat} {s : List Char}
    {vs : List Json} {rest : List Char} (h : readItems item fuel s = .ok (vs, rest)) : WellFormedItems vs := by
  induction fuel generalizing s vs rest with
  | zero => cases h
  | succ fuel ih =>
    obtain ⟨⟨v, s'⟩, hv, h⟩ := bind_eq_ok h
    have hfirst := hitem s v s' hv
    dsimp only at h
    split at h
    · cases h
    · cases h
      exact ⟨hfirst, trivial⟩
    · split at h
      · cases h
      · cases h
      · obtain ⟨⟨ws, rest'⟩, hws, h⟩ := bind_eq_ok h
        cases h
        exact ⟨hfirst, ih hws⟩
    · cases h

/-- An array read by a sound reader is well-formed. -/
theorem sound_readArray {item : ValueReader} (hitem : ∀ s, Sound (item s)) (fuel : Nat) (s : List Char) :
    Sound (readArray item fuel s) := by
  unfold readArray
  split
  · exact sound_error _
  · refine sound_ok ?_ _
    simp only [WellFormed, WellFormedItems]
  · intro v rest h
    obtain ⟨⟨vs, rest'⟩, hvs, h⟩ := bind_eq_ok h
    cases h
    simp only [WellFormed]
    exact wellFormed_readItems hitem hvs

/-- Putting a value under a key leaves every key once. -/
theorem nodup_put (key : String) (value : Json) {ms : List (String × Json)} (h : (ms.map Prod.fst).Nodup) :
    ((put key value ms).map Prod.fst).Nodup := by
  induction ms with
  | nil => exact List.pairwise_singleton _ _
  | cons e ms ih =>
    rw [List.map_cons, List.nodup_cons] at h
    rw [put]
    split
    · next heq =>
      rw [List.map_cons, List.nodup_cons]
      exact ⟨heq ▸ h.1, h.2⟩
    · next hne =>
      rw [List.map_cons, List.nodup_cons]
      refine ⟨fun hmem => ?_, ih h.2⟩
      obtain ⟨f, hf, hkey⟩ := List.mem_map.1 hmem
      rcases mem_put hf with rfl | hf
      · exact hne hkey.symm
      · exact h.1 (hkey ▸ List.mem_map_of_mem hf)

/-- An object made of well-formed members is well-formed. -/
theorem wellFormed_ofMembers {ms : List (String × Json)} (h : WellFormedMembers ms) :
    WellFormed (object (ofMembers ms)) := by
  have hfold : ∀ done : List (String × Json), (done.map Prod.fst).Nodup → (∀ e ∈ done, e.2.WellFormed) →
      ((ms.foldl (fun m e => put e.1 e.2 m) done).map Prod.fst).Nodup ∧
        ∀ e ∈ ms.foldl (fun m e => put e.1 e.2 m) done, e.2.WellFormed := by
    rw [wellFormedMembers_iff] at h
    induction ms with
    | nil => exact fun done hkeys hvalues => ⟨hkeys, hvalues⟩
    | cons f ms ih =>
      intro done hkeys hvalues
      refine ih (fun e he => h e (List.mem_cons_of_mem _ he)) _ (nodup_put _ _ hkeys) fun e he => ?_
      rcases mem_put he with rfl | he
      · exact h f List.mem_cons_self
      · exact hvalues e he
  obtain ⟨hkeys, hvalues⟩ := hfold [] List.nodup_nil fun e he => absurd he List.not_mem_nil
  simp only [WellFormed]
  exact ⟨hkeys, wellFormedMembers_iff.2 hvalues⟩

/-- The value of a member read by a sound reader is well-formed. -/
theorem sound_readMemberValue {item : ValueReader} (hitem : ∀ s, Sound (item s)) (s : List Char) :
    Sound (readMemberValue item s) := by
  unfold readMemberValue
  split
  · exact sound_error _
  · exact hitem _
  · exact sound_error _

/-- The members read by a sound reader are well-formed. -/
theorem wellFormed_readMembers {item : ValueReader} (hitem : ∀ s, Sound (item s)) {fuel : Nat} {s : List Char}
    {ms : List (String × Json)} {rest : List Char} (h : readMembers item fuel s = .ok (ms, rest)) :
    WellFormedMembers ms := by
  induction fuel generalizing s ms rest with
  | zero => cases h
  | succ fuel ih =>
    obtain ⟨⟨key, s'⟩, -, h⟩ := bind_eq_ok h
    obtain ⟨⟨v, s''⟩, hv, h⟩ := bind_eq_ok h
    have hfirst := sound_readMemberValue hitem s' v s'' hv
    dsimp only at h
    split at h
    · cases h
    · cases h
      exact ⟨hfirst, trivial⟩
    · split at h
      · cases h
      · obtain ⟨⟨ns, rest'⟩, hns, h⟩ := bind_eq_ok h
        cases h
        exact ⟨hfirst, ih hns⟩
      · cases h
      · cases h
    · cases h

/-- An object read by a sound reader is well-formed. -/
theorem sound_readObject {item : ValueReader} (hitem : ∀ s, Sound (item s)) (fuel : Nat) (s : List Char) :
    Sound (readObject item fuel s) := by
  unfold readObject
  split
  · exact sound_error _
  · refine sound_ok ?_ _
    simp only [WellFormed, WellFormedMembers, List.map_nil, List.nodup_nil, and_self]
  · intro v rest h
    obtain ⟨⟨ms, rest'⟩, hms, h⟩ := bind_eq_ok h
    cases h
    exact wellFormed_ofMembers (wellFormed_readMembers hitem hms)
  · exact sound_error _

/-! ## Documents -/

/-- A word that is read stands for a well-formed value. -/
theorem sound_readWord {v : Json} (h : v.WellFormed) (word s : List Char) : Sound (readWord word v s) := by
  induction word generalizing s with
  | nil =>
    rw [readWord]
    exact sound_ok h s
  | cons w word ih =>
    cases s with
    | nil => exact sound_error _
    | cons c s =>
      rw [readWord]
      split
      · exact ih s
      · exact sound_error _

/-- A value is well-formed when what is inside is read by a sound reader. -/
theorem sound_readValueWith {inner : Option ValueReader} (hinner : ∀ item, inner = some item → ∀ s, Sound (item s))
    (s : List Char) : Sound (readValueWith inner s) := by
  unfold readValueWith
  split
  · exact sound_error _
  · exact sound_readWord (by simp only [WellFormed]) _ _
  · exact sound_readWord (by simp only [WellFormed]) _ _
  · exact sound_readWord (by simp only [WellFormed]) _ _
  · exact sound_readNumeral true _
  · intro v rest h
    obtain ⟨⟨text, rest'⟩, -, h⟩ := bind_eq_ok h
    cases h
    simp only [WellFormed]
  · split
    · exact sound_readArray (hinner _ rfl) _ _
    · exact sound_error _
  · split
    · exact sound_readObject (hinner _ rfl) _ _
    · exact sound_error _
  · split
    · exact sound_readNumeral false _
    · exact sound_error _

/-- Values are well-formed at any depth. -/
theorem sound_readValue (depth : Nat) (s : List Char) : Sound (readValue depth s) := by
  induction depth generalizing s with
  | zero =>
    refine sound_readValueWith ?_ s
    intro item h
    cases h
  | succ depth ih =>
    refine sound_readValueWith ?_ s
    rintro item ⟨⟩
    exact ih

/-- A document that was read is well-formed. -/
theorem wellFormed_of_read {s : String} {v : Json} (h : read s = .ok v) : v.WellFormed := by
  unfold read at h
  split at h
  · next w hread =>
    cases h
    obtain ⟨⟨w', rest⟩, hvalue, hread⟩ := bind_eq_ok hread
    dsimp only at hread
    split at hread
    · cases hread
      exact sound_readValue _ _ _ _ hvalue
    · cases hread
  · cases h

end SnapshotLedger.Json
