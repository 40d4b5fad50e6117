/-!
# Entries in order of their keys

A list of entries stands for a finite map when its keys ascend strictly (`Entries.Ordered`); then every map has
one list. Keys are compared code point by code point. `insert` replaces or adds, `ofList` lets the last of
several entries for a key win. Main statement: whatever the list, `ofList` puts it in order (`ordered_ofList`).
-/

namespace SnapshotLedger.Entries

variable {α : Type}

/-- The keys ascend strictly. -/
def Ordered (l : List (String × α)) : Prop := (l.map Prod.fst).Pairwise (· < ·)

/-- The entries with the value of one key replaced or added. -/
def insert (k : String) (v : α) : List (String × α) → List (String × α)
  | [] => [(k, v)]
  | e :: r => if k < e.1 then (k, v) :: e :: r else if k = e.1 then (k, v) :: r else e :: insert k v r

/-- The value of a key. -/
def find? (k : String) (l : List (String × α)) : Option α := l.lookup k

/-- The entries of a list in order of their keys, the last one for each key. -/
def ofList (l : List (String × α)) : List (String × α) := l.foldl (fun m e => insert e.1 e.2 m) []

/-- No entries are in order. -/
theorem ordered_nil : Ordered ([] : List (String × α)) := List.Pairwise.nil

/-- Of two keys that differ, the one that is not smaller is greater. -/
theorem lt_of_not_lt_of_ne {k l : String} (h : ¬k < l) (hne : k ≠ l) : l < k :=
  String.not_le.1 fun hle => hne (String.le_antisymm hle (String.not_lt.1 h))

/-- Inserting brings no other key than the one inserted. -/
theorem mem_keys_insert {k x : String} {v : α} {l : List (String × α)} (h : x ∈ (insert k v l).map Prod.fst) :
    x = k ∨ x ∈ l.map Prod.fst := by
  induction l with
  | nil => simpa [insert] using h
  | cons e r ih =>
    unfold insert at h
    split at h
    · simpa using h
    split at h
    · next hk =>
      subst hk
      simpa using h
    · rw [List.map_cons, List.mem_cons] at h
      rcases h with rfl | h
      · simp
      · rcases ih h with rfl | hx
        · exact .inl rfl
        · exact .inr (List.mem_cons_of_mem _ hx)

/-- Inserting keeps the order. -/
theorem ordered_insert (k : String) (v : α) {l : List (String × α)} (h : Ordered l) : Ordered (insert k v l) := by
  induction l with
  | nil => exact List.pairwise_singleton _ _
  | cons e r ih =>
    obtain ⟨hfirst, hrest⟩ := List.pairwise_cons.1 h
    unfold insert
    split
    · next hlt =>
      refine List.pairwise_cons.2 ⟨fun x hx => ?_, h⟩
      rcases List.mem_cons.1 hx with rfl | hx
      · exact hlt
      · exact String.lt_trans hlt (hfirst x hx)
    split
    · next heq =>
      subst heq
      exact List.pairwise_cons.2 ⟨hfirst, hrest⟩
    · next hlt hne =>
      refine List.pairwise_cons.2 ⟨fun x hx => ?_, ih hrest⟩
      rcases mem_keys_insert hx with rfl | hx
      · exact lt_of_not_lt_of_ne hlt hne
      · exact hfirst x hx

/-- Inserting one entry after the other keeps the order. -/
theorem ordered_foldl_insert (l : List (String × α)) {m : List (String × α)} (h : Ordered m) :
    Ordered (l.foldl (fun m e => insert e.1 e.2 m) m) := by
  induction l generalizing m with
  | nil => exact h
  | cons e r ih => exact ih (ordered_insert e.1 e.2 h)

/-- The entries of any list are put in order. -/
theorem ordered_ofList (l : List (String × α)) : Ordered (ofList l) := ordered_foldl_insert l ordered_nil

/-- Inserting brings no other entry than the one inserted. -/
theorem mem_insert {k : String} {v : α} {e : String × α} {l : List (String × α)} (h : e ∈ insert k v l) :
    e = (k, v) ∨ e ∈ l := by
  induction l with
  | nil => simpa [insert] using h
  | cons f r ih =>
    unfold insert at h
    split at h
    · simpa using h
    split at h
    · rcases List.mem_cons.1 h with rfl | h
      · exact .inl rfl
      · exact .inr (List.mem_cons_of_mem _ h)
    · rcases List.mem_cons.1 h with rfl | h
      · exact .inr List.mem_cons_self
      · exact (ih h).imp id (List.mem_cons_of_mem _)

/-- Inserting one entry after the other brings no others. -/
theorem mem_foldl_insert {e : String × α} {l m : List (String × α)}
    (h : e ∈ l.foldl (fun m e => insert e.1 e.2 m) m) : e ∈ l ∨ e ∈ m := by
  induction l generalizing m with
  | nil => exact .inr h
  | cons f r ih =>
    rcases ih h with h | h
    · exact .inl (List.mem_cons_of_mem _ h)
    · rcases mem_insert h with rfl | h
      · exact .inl List.mem_cons_self
      · exact .inr h

/-- Only entries of the list are put in order. -/
theorem mem_of_mem_ofList {e : String × α} {l : List (String × α)} (h : e ∈ ofList l) : e ∈ l :=
  (mem_foldl_insert h).resolve_right List.not_mem_nil

/-- The key inserted is found with its value. -/
theorem find?_insert_self (k : String) (v : α) (l : List (String × α)) : find? k (insert k v l) = some v := by
  induction l with
  | nil => simp [find?, insert]
  | cons e r ih =>
    obtain ⟨key, value⟩ := e
    simp only [find?] at ih
    unfold insert
    split
    · simp [find?]
    split
    · simp [find?]
    · next h =>
      have hkey : (k == key) = false := beq_eq_false_iff_ne.2 h
      simp only [find?, List.lookup_cons, hkey, ih]

end SnapshotLedger.Entries
