import Mathlib.Data.List.Forall2
import Mathlib.Data.List.Nodup
import SnapshotLedger.Entries

/-!
# Lists of entries as maps

A list in order is the only one with its entries (`eq_of_perm`), so entries whose keys differ may come in any
order (`ofList_eq_of_perm`), and what is done to every value may be done before or after (`mapValues_ofList`).
It is also the only one in which the same is found under every key (`eq_of_lookup_eq`).

Functions on trees go through lists of items and of entries one after the other. What they gather on their way is
what they gather from one of the items (`mem_appended_iff`), and what they do to the values of entries is done to
every value (`Entries.eq_mapValues`).
-/

namespace SnapshotLedger

/-- What is gathered from a list, item by item, is gathered from one of its items. -/
theorem mem_appended_iff {α β : Type} {f : List α → List β} {g : α → List β} (hnil : f [] = [])
    (hcons : ∀ a l, f (a :: l) = g a ++ f l) {l : List α} {b : β} : b ∈ f l ↔ ∃ a ∈ l, b ∈ g a := by
  induction l with
  | nil =>
    rw [hnil]
    exact ⟨fun h => absurd h List.not_mem_nil, fun ⟨_, h, _⟩ => absurd h List.not_mem_nil⟩
  | cons a l ih => simp only [hcons, List.mem_append, ih, List.mem_cons, exists_eq_or_imp]

namespace Entries

variable {α β : Type}

/-- The entries with something done to every value. -/
def mapValues (f : α → β) (l : List (String × α)) : List (String × β) := l.map fun e => (e.1, f e.2)

/-- What is done to values one after the other is done to every value. -/
theorem eq_mapValues {f : List (String × α) → List (String × β)} {g : α → β} (hnil : f [] = [])
    (hcons : ∀ e l, f (e :: l) = (e.1, g e.2) :: f l) (l : List (String × α)) : f l = mapValues g l := by
  induction l with
  | nil => exact hnil
  | cons e l ih =>
    rw [hcons, ih]
    rfl

/-- The keys are left. -/
theorem keys_mapValues (f : α → β) (l : List (String × α)) : (mapValues f l).map Prod.fst = l.map Prod.fst := by
  rw [mapValues, List.map_map]
  rfl

/-- Under a key stands what was done to the value that stood there, also where that depends on the key. -/
theorem lookup_map (f : String → α → β) (k : String) (l : List (String × α)) :
    (l.map fun e => (e.1, f e.1 e.2)).lookup k = (l.lookup k).map (f k) := by
  induction l with
  | nil => rfl
  | cons e r ih =>
    obtain ⟨key, v⟩ := e
    simp only [List.map_cons, List.lookup_cons, ih]
    split
    · next heq =>
      obtain rfl : k = key := by simpa using heq
      rfl
    · rfl

/-- Under a key stands what was done to the value that stood there. -/
theorem lookup_mapValues (f : α → β) (k : String) (l : List (String × α)) :
    (mapValues f l).lookup k = (l.lookup k).map f :=
  lookup_map (fun _ => f) k l

/-- Entries in order have every key once. -/
theorem nodup_of_ordered {l : List (String × α)} (h : Ordered l) : (l.map Prod.fst).Nodup := by
  refine List.Pairwise.imp ?_ h
  rintro k _ hlt rfl
  exact String.lt_irrefl k hlt

/-- Lists in order with the same entries are equal. -/
theorem eq_of_perm {l m : List (String × α)} (hl : Ordered l) (hm : Ordered m) (h : l.Perm m) : l = m := by
  have hpair : ∀ {n : List (String × α)}, Ordered n → n.Pairwise fun a b => a.1 < b.1 :=
    fun hn => List.pairwise_map.1 hn
  refine List.Perm.eq_of_pairwise (fun a b _ _ hab hba => ?_) (hpair hl) (hpair hm) h
  exact absurd (String.lt_trans hab hba) (String.lt_irrefl _)

/-! ## Inserting -/

/-- A new key is added. -/
theorem perm_insert {k : String} (v : α) {l : List (String × α)} (h : k ∉ l.map Prod.fst) :
    (insert k v l).Perm ((k, v) :: l) := by
  induction l with
  | nil => exact .refl _
  | cons e r ih =>
    rw [List.map_cons, List.mem_cons, not_or] at h
    unfold insert
    split
    · exact .refl _
    rw [if_neg h.1]
    exact ((ih h.2).cons e).trans (.swap (k, v) e r)

/-- What is done to every value may be done before inserting. -/
theorem mapValues_insert (f : α → β) (k : String) (v : α) (l : List (String × α)) :
    mapValues f (insert k v l) = insert k (f v) (mapValues f l) := by
  induction l with
  | nil => rfl
  | cons e r ih =>
    unfold mapValues at ih ⊢
    rw [List.map_cons, insert, insert]
    dsimp only
    split
    · rfl
    split
    · rfl
    · rw [List.map_cons, ih]

/-- The value of a key after inserting. -/
theorem find?_insert (x k : String) (v : α) (l : List (String × α)) :
    find? x (insert k v l) = if x = k then some v else find? x l := by
  by_cases hx : x = k
  · rw [if_pos hx, hx, find?_insert_self]
  · rw [if_neg hx]
    have hne : (x == k) = false := beq_eq_false_iff_ne.2 hx
    induction l with
    | nil => simp only [insert, find?, List.lookup_cons, hne, List.lookup_nil]
    | cons e r ih =>
      obtain ⟨key, value⟩ := e
      unfold insert
      split
      · simp only [find?, List.lookup_cons, hne]
      split
      · next heq =>
        rw [show key = k from heq.symm]
        simp only [find?, List.lookup_cons, hne]
      · simp only [find?, List.lookup_cons] at ih ⊢
        rw [ih]

/-! ## Putting in order -/

/-- Entries whose keys differ are all kept. -/
theorem perm_ofList {l : List (String × α)} (h : (l.map Prod.fst).Nodup) : (ofList l).Perm l := by
  have hfold : ∀ m : List (String × α), ((m ++ l).map Prod.fst).Nodup →
      (l.foldl (fun m e => insert e.1 e.2 m) m).Perm (m ++ l) := by
    induction l with
    | nil => intro m _; rw [List.append_nil]; exact .refl _
    | cons e r ih =>
      intro m hm
      have hnew : e.1 ∉ m.map Prod.fst := by
        rw [List.map_append, List.map_cons, List.nodup_append] at hm
        exact fun hmem => hm.2.2 _ hmem _ List.mem_cons_self rfl
      have hone := perm_insert e.2 hnew
      have hall : (insert e.1 e.2 m ++ r).Perm (m ++ e :: r) := (hone.append_right r).trans List.perm_middle.symm
      have hkeys : ((insert e.1 e.2 m ++ r).map Prod.fst).Nodup := (hall.map Prod.fst).nodup_iff.2 hm
      exact (ih (List.nodup_cons.1 h).2 _ hkeys).trans hall
  exact hfold [] h

/-- Entries whose keys differ may come in any order. -/
theorem ofList_eq_of_perm {l m : List (String × α)} (hl : (l.map Prod.fst).Nodup) (h : l.Perm m) :
    ofList l = ofList m := by
  have hm : (m.map Prod.fst).Nodup := (h.map Prod.fst).nodup_iff.1 hl
  exact eq_of_perm (ordered_ofList l) (ordered_ofList m) ((perm_ofList hl).trans (h.trans (perm_ofList hm).symm))

/-- Entries in order stay as they are. -/
theorem ofList_of_ordered {l : List (String × α)} (h : Ordered l) : ofList l = l :=
  eq_of_perm (ordered_ofList l) h (perm_ofList (nodup_of_ordered h))

/-- What is done to every value may be done before putting in order. -/
theorem mapValues_ofList (f : α → β) (l : List (String × α)) : mapValues f (ofList l) = ofList (mapValues f l) := by
  have hfold : ∀ m : List (String × α), mapValues f (l.foldl (fun m e => insert e.1 e.2 m) m) =
      (mapValues f l).foldl (fun m e => insert e.1 e.2 m) (mapValues f m) := by
    induction l with
    | nil => intro m; rfl
    | cons e r ih =>
      intro m
      rw [List.foldl_cons, ih, mapValues_insert]
      rfl
  exact hfold []

/-- Entries of two lists that correspond still do after inserting values that correspond. -/
theorem forall₂_insert {R : α → β → Prop} {k : String} {v : α} {w : β} (hvalue : R v w) {l : List (String × α)}
    {m : List (String × β)} (h : List.Forall₂ (fun e f => e.1 = f.1 ∧ R e.2 f.2) l m) :
    List.Forall₂ (fun e f => e.1 = f.1 ∧ R e.2 f.2) (insert k v l) (insert k w m) := by
  induction h with
  | nil => exact .cons ⟨rfl, hvalue⟩ .nil
  | cons hfirst hrest ih =>
    unfold insert
    rw [hfirst.1]
    split
    · exact .cons ⟨rfl, hvalue⟩ (.cons hfirst hrest)
    split
    · exact .cons ⟨rfl, hvalue⟩ hrest
    · exact .cons hfirst ih

/-- Entries of two lists that correspond still do when both are put in order. -/
theorem forall₂_ofList {R : α → β → Prop} {l : List (String × α)} {m : List (String × β)}
    (h : List.Forall₂ (fun e f => e.1 = f.1 ∧ R e.2 f.2) l m) :
    List.Forall₂ (fun e f => e.1 = f.1 ∧ R e.2 f.2) (ofList l) (ofList m) := by
  have hfold : ∀ {l' : List (String × α)} {m' : List (String × β)},
      List.Forall₂ (fun e f => e.1 = f.1 ∧ R e.2 f.2) l' m' →
      List.Forall₂ (fun e f => e.1 = f.1 ∧ R e.2 f.2) (l.foldl (fun m e => insert e.1 e.2 m) l')
        (m.foldl (fun m e => insert e.1 e.2 m) m') := by
    induction h with
    | nil => exact id
    | cons hfirst _ ih =>
      intro l' m' h'
      rw [List.foldl_cons, List.foldl_cons, hfirst.1]
      exact ih (forall₂_insert hfirst.2 h')
  exact hfold .nil

/-- The value of a key after inserting one entry after the other is that of the last of them. -/
theorem find?_foldl_insert (x : String) (l m : List (String × α)) :
    find? x (l.foldl (fun m e => insert e.1 e.2 m) m) = (l.reverse.lookup x).or (find? x m) := by
  induction l generalizing m with
  | nil => rfl
  | cons e r ih =>
    obtain ⟨k, v⟩ := e
    rw [List.foldl_cons, ih, find?_insert, List.reverse_cons, List.lookup_append, Option.or_assoc]
    by_cases hx : x = k
    · rw [hx, if_pos rfl, List.lookup_cons_self, Option.some_or]
    · have hne : (x == k) = false := beq_eq_false_iff_ne.2 hx
      rw [if_neg hx, List.lookup_cons, hne]
      rfl

/-- Of several entries for a key the last one wins. -/
theorem find?_ofList (x : String) (l : List (String × α)) : find? x (ofList l) = l.reverse.lookup x := by
  rw [ofList, find?_foldl_insert]
  exact Option.or_none

/-- The entry found under a key is an entry. -/
theorem mem_of_lookup {l : List (String × α)} {k : String} {v : α} (h : l.lookup k = some v) : (k, v) ∈ l := by
  obtain ⟨front, back, rfl, -⟩ := List.lookup_eq_some_iff.1 h
  exact List.mem_append_right _ List.mem_cons_self

/-- A value is found under the keys of entries. -/
theorem lookup_isSome_iff {l : List (String × α)} {k : String} : (l.lookup k).isSome = true ↔ k ∈ l.map Prod.fst := by
  simp only [List.lookup_isSome_iff, List.mem_map, beq_iff_eq, eq_comm (a := k)]

/-- Of entries in order exactly those are found under their keys. -/
theorem lookup_eq_some_iff {l : List (String × α)} (h : Ordered l) {k : String} {v : α} :
    l.lookup k = some v ↔ (k, v) ∈ l := by
  constructor
  · exact mem_of_lookup
  · intro hmem
    obtain ⟨w, hw⟩ := Option.isSome_iff_exists.1 (lookup_isSome_iff.2 (List.mem_map_of_mem hmem))
    have hsame : (k, v) = (k, w) := List.inj_on_of_nodup_map (nodup_of_ordered h) hmem (mem_of_lookup hw) rfl
    rw [hw, (Prod.mk.inj hsame).2]

/-- Lists in order are equal when the same is found in both under every key. -/
theorem eq_of_lookup_eq {l m : List (String × α)} (hl : Ordered l) (hm : Ordered m)
    (h : ∀ k, l.lookup k = m.lookup k) : l = m := by
  refine eq_of_perm hl hm ((List.perm_ext_iff_of_nodup (nodup_of_ordered hl).of_map (nodup_of_ordered hm).of_map).2 ?_)
  rintro ⟨k, v⟩
  rw [← lookup_eq_some_iff hl, ← lookup_eq_some_iff hm, h]

/-- Putting in order brings and takes away no key. -/
theorem mem_keys_ofList {l : List (String × α)} {k : String} : k ∈ (ofList l).map Prod.fst ↔ k ∈ l.map Prod.fst := by
  rw [← lookup_isSome_iff, ← find?, find?_ofList, lookup_isSome_iff, List.map_reverse, List.mem_reverse]

/-- An entry is kept when there is no other value for its key. -/
theorem mem_ofList {l : List (String × α)} {k : String} {v : α} (h : (k, v) ∈ l) (hall : ∀ e ∈ l, e.1 = k → e.2 = v) :
    (k, v) ∈ ofList l := by
  have hfound : ∃ w, l.reverse.lookup k = some w := by
    refine Option.isSome_iff_exists.1 (List.lookup_isSome_iff.2 ⟨(k, v), List.mem_reverse.2 h, ?_⟩)
    exact beq_self_eq_true k
  obtain ⟨w, hw⟩ := hfound
  have heq : w = v := hall (k, w) (List.mem_reverse.1 (mem_of_lookup hw)) rfl
  rw [← find?_ofList, heq] at hw
  exact mem_of_lookup hw

end Entries

end SnapshotLedger
