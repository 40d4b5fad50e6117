import Mathlib.Data.List.Pairwise
import SnapshotLedger.Proofs.Store.Refinement

/-!
# Retention and listings

A listing shows the newest row first, so its run keys come up in the order of their newest rows
(`pairwise_runKeys_listing`). Retention ranks run keys by their heights, whose instant and whose number need not
be those of one row. Each of the two is a strict order of the run keys of a task, and so pruning keeps the run
keys that a listing shows first exactly when the two orders are the same. They are when some row of each run key
is both the latest and the last one (`rankedByNewest_of_latest_last`), and they are not always.
-/

namespace SnapshotLedger

namespace Store

/-- The instant at which the row was created and its number, the instant counting first. -/
def Row.recency (r : Row) : Int ×ₗ Nat := toLex (r.micros, r.seq)

/-- A run key has a row that is newer than all rows of another one. -/
def Newer (rows : List Row) (a b : String) : Prop := ∃ r ∈ ownRows rows a, ∀ s ∈ ownRows rows b, s.recency < r.recency

instance (rows : List Row) (a b : String) : Decidable (Newer rows a b) :=
  inferInstanceAs (Decidable (∃ r ∈ ownRows rows a, ∀ s ∈ ownRows rows b, s.recency < r.recency))

/-- The heights of run keys order them as their newest rows do. -/
def RankedByNewest (rows : List Row) : Prop :=
  ∀ a ∈ keySet rows, ∀ b ∈ keySet rows, (height rows b < height rows a ↔ Newer rows a b)

namespace RecencyAux

open RetentionAux

/-! ## Strict orders of run keys -/

/-- The number of run keys that stand before one run key. -/
def place (before : String → String → Prop) [DecidableRel before] (keys : Finset String) (k : String) : Nat :=
  (keys.filter (before · k)).card

/-- A strict order of some run keys. -/
structure Strict (before : String → String → Prop) (keys : Finset String) : Prop where
  asymm : ∀ a b, before a b → ¬before b a
  trans : ∀ a b c, before a b → before b c → before a c
  total : ∀ a ∈ keys, ∀ b ∈ keys, a ≠ b → before a b ∨ before b a

section
variable {p q : String → String → Prop} [DecidableRel p] [DecidableRel q] {keys : Finset String}

/-- Fewer run keys stand before a run key than before one that it stands before. -/
theorem Strict.place_lt (h : Strict p keys) {a b : String} (ha : a ∈ keys) (hab : p a b) :
    place p keys a < place p keys b :=
  card_before_lt (fun c hc => h.asymm c c hc hc) h.trans ha hab

/-- A run key stands before another exactly when fewer stand before it. -/
theorem Strict.place_lt_iff (h : Strict p keys) {a b : String} (ha : a ∈ keys) (hb : b ∈ keys) :
    place p keys a < place p keys b ↔ p a b := by
  constructor
  · intro hlt
    by_cases heq : a = b
    · subst heq
      exact absurd hlt (lt_irrefl _)
    · rcases h.total a ha b hb heq with hab | hba
      · exact hab
      · exact absurd (h.place_lt hb hba) (lt_asymm hlt)
  · exact h.place_lt ha

/-- Two strict orders have the same run keys at the front, however many, exactly when they are the same order. -/
theorem Strict.front_iff (hp : Strict p keys) (hq : Strict q keys) :
    (∀ n : Nat, 0 < n → ∀ k ∈ keys, (place p keys k < n ↔ place q keys k < n)) ↔
      ∀ a ∈ keys, ∀ b ∈ keys, (p a b ↔ q a b) := by
  constructor
  · intro h
    have hsame : ∀ k ∈ keys, place p keys k = place q keys k := by
      intro k hk
      have hle := (h _ (Nat.succ_pos (place p keys k)) k hk).1 (Nat.lt_succ_self _)
      have hge := (h _ (Nat.succ_pos (place q keys k)) k hk).2 (Nat.lt_succ_self _)
      omega
    intro a ha b hb
    rw [← hp.place_lt_iff ha hb, ← hq.place_lt_iff ha hb, hsame a ha, hsame b hb]
  · intro h n _ k hk
    have hfilter : keys.filter (p · k) = keys.filter (q · k) := Finset.filter_congr fun a ha => h a ha k hk
    rw [place, place, hfilter]

end

/-! ## The order of heights -/

/-- The heights of the run keys are a strict order. -/
theorem strict_height {rows : List Row} (hdated : ∀ r ∈ rows, r.Dated)
    (hnumbered : rows.Pairwise fun r s => r.seq < s.seq) :
    Strict (fun a b => height rows b < height rows a) (keySet rows) where
  asymm _ _ h := lt_asymm h
  trans _ _ _ hab hbc := hbc.trans hab
  total a ha b hb hne := by
    obtain ⟨_, -, last, -, -, -, hstanding, hheight⟩ := standing_spec hdated ha
    obtain ⟨_, -, last', -, -, -, hstanding', hheight'⟩ := standing_spec hdated hb
    have hseq := standing_seq_ne hdated hnumbered ha hb hne
    rw [hstanding, hstanding'] at hseq
    have hdistinct : height rows b ≠ height rows a := by
      rw [hheight, hheight']
      intro heq
      exact hseq (congrArg (fun h => (ofLex h).2) heq).symm
    exact lt_or_gt_of_ne hdistinct

/-! ## The order of newest rows -/

/-- If a row of a run key is both the latest and the last one, it is as high as the run key. -/
theorem height_eq_recency {rows : List Row} {k : String} {r : Row} (hr : r ∈ ownRows rows k)
    (h : ∀ s ∈ ownRows rows k, s.micros ≤ r.micros ∧ s.seq ≤ r.seq) : height rows k = r.recency := by
  have hmicros := max?_map Row.micros hr fun s hs => (h s hs).1
  have hseq := max?_map Row.seq hr fun s hs => (h s hs).2
  rw [height, hmicros, hseq]
  rfl

/-- If some row of each run key is both the latest and the last one, heights order the run keys as their newest
rows do. -/
theorem rankedByNewest_of_latest_last {rows : List Row}
    (h : ∀ k ∈ keySet rows, ∃ r ∈ ownRows rows k, ∀ s ∈ ownRows rows k, s.micros ≤ r.micros ∧ s.seq ≤ r.seq) :
    RankedByNewest rows := by
  have hle : ∀ {r s : Row}, s.micros ≤ r.micros ∧ s.seq ≤ r.seq → s.recency ≤ r.recency := by
    rintro r s ⟨hmicros, hseq⟩
    rw [Row.recency, Row.recency, Prod.Lex.toLex_le_toLex]
    rcases lt_or_eq_of_le hmicros with hlt | heq
    · exact .inl hlt
    · exact .inr ⟨heq, hseq⟩
  intro a ha b hb
  obtain ⟨r, hr, hlast⟩ := h a ha
  obtain ⟨s, hs, hlast'⟩ := h b hb
  rw [height_eq_recency hr hlast, height_eq_recency hs hlast']
  constructor
  · intro hlt
    exact ⟨r, hr, fun u hu => (hle (hlast' u hu)).trans_lt hlt⟩
  · rintro ⟨u, hu, hall⟩
    exact (hall s hs).trans_le (hle (hlast u hu))

/-- A row stands in a listing as its run key would stand in the ranking if it had no other rows. -/
theorem newerFirst_eq (r s : Row) :
    r.newerFirst s = Standing.before ⟨r.runKey, r.createdAt, r.seq⟩ ⟨s.runKey, s.createdAt, s.seq⟩ := rfl

/-- Of two rows one stands before the other. -/
theorem newerFirst_total (r s : Row) : r.newerFirst s = true ∨ s.newerFirst r = true := by
  rw [newerFirst_eq, newerFirst_eq]
  exact before_total _ _

/-- What stands before a row that stands before another stands before that one. -/
theorem newerFirst_trans (r s u : Row) (hrs : r.newerFirst s = true) (hsu : s.newerFirst u = true) :
    r.newerFirst u = true := by
  rw [newerFirst_eq] at hrs hsu ⊢
  exact before_trans _ _ _ hrs hsu

/-- A row that may stand before another one with another number is newer. -/
theorem recency_lt_of_newerFirst {r s : Row} (hr : r.Dated) (hs : s.Dated) (hne : r.seq ≠ s.seq)
    (h : r.newerFirst s = true) :
    s.recency < r.recency := by
  have hlt := createdAt_lt_iff hs hr
  have heq := (createdAt_eq_iff hr hs).trans eq_comm
  simp only [Row.newerFirst, Bool.or_eq_true, Bool.and_eq_true, decide_eq_true_eq, hlt, heq] at h
  rw [Row.recency, Row.recency, Prod.Lex.toLex_lt_toLex]
  rcases h with hmicros | ⟨hmicros, hle⟩
  · exact .inl hmicros
  · exact .inr ⟨hmicros, by omega⟩

/-- The rows of another run key are not those of the first row. -/
theorem ownRows_cons_of_ne {r : Row} {rows : List Row} {k : String} (h : k ≠ r.runKey) :
    ownRows (r :: rows) k = ownRows rows k := by
  unfold ownRows
  rw [List.filter_cons_of_neg]
  rw [decide_eq_true_eq]
  exact Ne.symm h

/-- The run keys of rows that stand in order, newest first, come up in the order of their newest rows. -/
theorem pairwise_runKeys {rows : List Row} (h : rows.Pairwise fun r s => s.recency < r.recency) :
    (runKeys rows).Pairwise (Newer rows) := by
  induction rows with
  | nil => exact .nil
  | cons r rows ih =>
    obtain ⟨hfirst, hrest⟩ := List.pairwise_cons.1 h
    have hother : ∀ k ∈ (runKeys rows).filter (· ≠ r.runKey), k ≠ r.runKey := by
      intro k hk
      exact of_decide_eq_true (List.mem_filter.1 hk).2
    refine List.pairwise_cons.2 ⟨?_, ?_⟩
    · intro k hk
      refine ⟨r, mem_ownRows.2 ⟨List.mem_cons_self, rfl⟩, ?_⟩
      intro s hs
      rw [ownRows_cons_of_ne (hother k hk)] at hs
      exact hfirst s (mem_ownRows.1 hs).1
    · refine ((ih hrest).filter _).imp_of_mem ?_
      rintro a b _ hb ⟨s, hs, hall⟩
      obtain ⟨hmem, hkey⟩ := mem_ownRows.1 hs
      refine ⟨s, mem_ownRows.2 ⟨List.mem_cons_of_mem _ hmem, hkey⟩, ?_⟩
      rw [ownRows_cons_of_ne (hother b hb)]
      exact hall

/-- A run key that is newer than another is not older. -/
theorem newer_asymm {rows : List Row} {a b : String} (h : Newer rows a b) : ¬Newer rows b a := by
  rintro ⟨s, hs, hall'⟩
  obtain ⟨r, hr, hall⟩ := h
  exact lt_asymm (hall s hs) (hall' r hr)

/-- What is newer than a run key that is newer than another is newer than that one. -/
theorem newer_trans {rows : List Row} {a b c : String} (hab : Newer rows a b) (hbc : Newer rows b c) :
    Newer rows a c := by
  obtain ⟨r, hr, hall⟩ := hab
  obtain ⟨s, hs, hall'⟩ := hbc
  exact ⟨r, hr, fun u hu => (hall' u hu).trans (hall s hs)⟩

/-- Which run key is newer does not depend on the order of the rows. -/
theorem newer_congr {rows rows' : List Row} (h : ∀ r, r ∈ rows ↔ r ∈ rows') (a b : String) :
    Newer rows a b ↔ Newer rows' a b := by
  simp only [Newer, mem_ownRows, h]

section
variable {t : Table}

/-- A listing without a limit decodes its rows one after the other. -/
theorem list_eq_mapM (t : Table) (workflow : String) (task : Option String) : list ⟨some t⟩ workflow task none =
    (t.listing workflow task).mapM fun r => (snapshotOf r).mapError (.row .decodingRow) := rfl

/-- A listing shows the rows that it picks. -/
theorem perm_listing_filter (t : Table) (workflow : String) (task : Option String) :
    (t.listing workflow task).Perm (t.rows.filter fun r => r.workflow = workflow && task.all (r.task = ·)) :=
  Sorting.perm_sortBy Row.newerFirst _

/-- A listing shows the rows of its task. -/
theorem perm_listing (t : Table) (workflow task : String) :
    (t.listing workflow (some task)).Perm (t.group workflow task) :=
  perm_listing_filter t workflow (some task)

/-- The rows of a listing are in its order, and differ in what all rows differ in. -/
theorem pairwise_newerFirst_listing {α : Type} {part : Row → α} (h : t.rows.Pairwise fun r s => part r ≠ part s)
    (workflow : String) (task : Option String) :
    (t.listing workflow task).Pairwise fun r s => r.newerFirst s = true ∧ part r ≠ part s := by
  have hsorted := Sorting.pairwise_sortBy newerFirst_total newerFirst_trans
    (t.rows.filter fun r => r.workflow = workflow && task.all (r.task = ·))
  have hne : (t.listing workflow task).Pairwise fun r s => part r ≠ part s :=
    ((perm_listing_filter t workflow task).pairwise_iff fun {_ _} hne => Ne.symm hne).2 (h.filter _)
  exact hsorted.and hne

/-- Each row of a listing is newer than those behind it. -/
theorem pairwise_listing (h : t.Sound) (workflow : String) (task : Option String) :
    (t.listing workflow task).Pairwise fun r s => s.recency < r.recency := by
  have hdated : ∀ r ∈ t.listing workflow task, r.Dated := by
    intro r hr
    exact h.dated r (List.mem_filter.1 ((perm_listing_filter t workflow task).mem_iff.1 hr)).1
  refine (pairwise_newerFirst_listing (h.numbered.imp Nat.ne_of_lt) workflow task).imp_of_mem ?_
  intro r s hr hs hboth
  exact recency_lt_of_newerFirst (hdated r hr) (hdated s hs) hboth.2 hboth.1

/-- The run keys in a listing are those of its task. -/
theorem keySet_listing (t : Table) (workflow task : String) :
    keySet (t.listing workflow (some task)) = keySet (t.group workflow task) :=
  List.toFinset_eq_of_perm _ _ ((perm_listing t workflow task).map Row.runKey)

/-- Reading a listing from the front, run keys come up in the order of their newest rows. -/
theorem pairwise_runKeys_listing (h : t.Sound) (workflow task : String) :
    (runKeys (t.listing workflow (some task))).Pairwise (Newer (t.group workflow task)) := by
  have hnewer := pairwise_runKeys (pairwise_listing h workflow (some task))
  exact hnewer.imp fun {a b} hab => (newer_congr (fun r => (perm_listing t workflow task).mem_iff) a b).1 hab

/-- Newest rows are a strict order of the run keys of a task. -/
theorem strict_newer (h : t.Sound) (workflow task : String) :
    Strict (Newer (t.group workflow task)) (keySet (t.group workflow task)) where
  asymm _ _ hab := newer_asymm hab
  trans _ _ _ hab hbc := newer_trans hab hbc
  total a ha b hb hne := by
    rw [← keySet_listing, ← toFinset_runKeys, List.mem_toFinset] at ha hb
    have hsymm : Std.Symm fun a b => Newer (t.group workflow task) a b ∨ Newer (t.group workflow task) b a :=
      ⟨fun _ _ => Or.symm⟩
    have heither := (pairwise_runKeys_listing h workflow task).imp
      (S := fun a b => Newer (t.group workflow task) a b ∨ Newer (t.group workflow task) b a) Or.inl
    exact heither.forall ha hb hne

/-- The first run keys in a listing are those that few enough run keys are newer than. -/
theorem mem_take_runKeys_listing (h : t.Sound) (workflow task : String) (n : Nat) {k : String}
    (hk : k ∈ keySet (t.group workflow task)) :
    k ∈ (runKeys (t.listing workflow (some task))).take n ↔
      place (Newer (t.group workflow task)) (keySet (t.group workflow task)) k < n := by
  have hasymm : ∀ a b, decide (Newer (t.group workflow task) a b) = true →
      decide (Newer (t.group workflow task) b a) = false := by
    intro a b hab
    exact decide_eq_false (newer_asymm (of_decide_eq_true hab))
  have hpairwise := (pairwise_runKeys_listing h workflow task).imp
    (S := fun a b => decide (Newer (t.group workflow task) a b) = true) (decide_eq_true ·)
  have hcount :
      (runKeys (t.listing workflow (some task))).countP (fun a => decide (Newer (t.group workflow task) a k)) =
        place (Newer (t.group workflow task)) (keySet (t.group workflow task)) k := by
    rw [countP_runKeys, keySet_listing, place]
    simp only [decide_eq_true_eq]
  rw [Sorting.mem_take_iff hasymm hpairwise, hcount]
  rw [← keySet_listing, ← toFinset_runKeys, List.mem_toFinset] at hk
  simp only [hk, true_and]

end

end RecencyAux

open RecencyAux

/-- Pruning keeps exactly the rows of the run keys that a listing shows first, whatever number of run keys is to
be kept, exactly when the run keys of the task are ordered by their heights as by their newest rows. -/
theorem prune_follows_listing_iff {s : Store} (h : Reachable s) {t : Table} (htable : s.table = some t)
    (workflow task : String) :
    (∀ keep : Int, 0 < keep → ∃ removed t', s.prune workflow task keep = .ok (removed, ⟨some t'⟩) ∧
        ∀ r ∈ t.group workflow task,
          (r ∈ t'.rows ↔ r.runKey ∈ (runKeys (t.listing workflow (some task))).take keep.toNat)) ↔
      RankedByNewest (t.group workflow task) := by
  have ht : t.Sound := h.sound t htable
  obtain rfl : s = ⟨some t⟩ := by
    cases s
    cases htable
    rfl
  have hheight := strict_height (ht.dated_group workflow task) (ht.numbered_group workflow task)
  rw [RankedByNewest, ← hheight.front_iff (strict_newer ht workflow task)]
  have hleft : ∀ n, ∀ r ∈ t.group workflow task,
      (r ∈ (t.prune workflow task n).rows ↔ rank (t.group workflow task) r.runKey < n) := by
    intro n r hr
    obtain ⟨hmem, htask⟩ := List.mem_filter.1 hr
    rw [ht.rows_prune, List.mem_filter]
    simp only [hmem, Table.loses, htask, true_and, Bool.true_and, Bool.not_eq_eq_eq_not, Bool.not_true,
      decide_eq_false_iff_not, not_le]
  constructor
  · intro hall n hn k hk
    obtain ⟨removed, t', hprune, hrows⟩ := hall n (Int.natCast_pos.2 hn)
    rw [prune_mk t workflow task (Int.natCast_pos.2 hn)] at hprune
    cases hprune
    obtain ⟨r, hr, rfl⟩ := List.mem_map.1 (List.mem_toFinset.1 hk)
    have hfront := hrows r hr
    rw [Int.toNat_natCast, hleft n r hr, mem_take_runKeys_listing ht workflow task n hk] at hfront
    exact hfront
  · intro hall keep hkeep
    refine ⟨_, _, prune_mk t workflow task hkeep, ?_⟩
    intro r hr
    have hk : r.runKey ∈ keySet (t.group workflow task) := List.mem_toFinset.2 (List.mem_map_of_mem hr)
    rw [hleft keep.toNat r hr, mem_take_runKeys_listing ht workflow task keep.toNat hk]
    exact hall keep.toNat (by omega) r.runKey hk

/-- Two run keys were written to at the same instant. A listing shows the one written to last first, and it is kept. -/
theorem prune_follows_listing_of_two : ∃ s t t' removed, Reachable s ∧ s.table = some t ∧
    s.prune "w" "t" 1 = .ok (removed, ⟨some t'⟩) ∧
    ∀ r ∈ t.group "w" "t", (r ∈ t'.rows ↔ r.runKey ∈ (runKeys (t.listing "w" (some "t"))).take 1) := by
  have hera : (⟨0, 0⟩ : Timestamp).InEra := by decide
  have hfirst := Reachable.write (.migrate .blank) hera
    (show Store.write _ ⟨1⟩ ⟨"w", "t", "a", some 0⟩ [] none ⟨0, 0⟩ = .ok (_, _) from rfl)
  have hreach := Reachable.write hfirst hera
    (show Store.write _ ⟨2⟩ ⟨"w", "t", "b", none⟩ [] none ⟨0, 0⟩ = .ok (_, _) from rfl)
  obtain ⟨removed, t', hprune, hrows⟩ := (prune_follows_listing_iff hreach (show _ = some _ from rfl) "w" "t").2
    (rankedByNewest_of_latest_last (by decide +kernel)) 1 (by decide)
  exact ⟨_, _, t', removed, hreach, rfl, hprune, hrows⟩

/-- A run key was written to twice, the second time with an instant before the first one, and in between another
run key at the first instant. A listing shows the other run key first, whose row is the newest, and pruning to
one run key removes it. -/
theorem prune_departs_from_listing : ∃ s t' shown, Reachable s ∧ s.list "w" (some "t") none = .ok shown ∧
    shown.map (·.identity.runKey) = ["b", "a", "a"] ∧ s.prune "w" "t" 1 = .ok (1, ⟨some t'⟩) ∧
    t'.rows.map Row.runKey = ["a", "a"] := by
  have hera : (⟨10000000000, 0⟩ : Timestamp).InEra := by decide
  have hfirst := Reachable.write (.migrate .blank) hera
    (show Store.write _ ⟨1⟩ ⟨"w", "t", "a", some 0⟩ [] none ⟨10000000000, 0⟩ = .ok (_, _) from rfl)
  have hsecond := Reachable.write hfirst hera
    (show Store.write _ ⟨2⟩ ⟨"w", "t", "b", none⟩ [] none ⟨10000000000, 0⟩ = .ok (_, _) from rfl)
  have hreach := Reachable.write hsecond (show (⟨5000000000, 0⟩ : Timestamp).InEra by decide)
    (show Store.write _ ⟨3⟩ ⟨"w", "t", "a", some 1⟩ [] none ⟨5000000000, 0⟩ = .ok (_, _) from rfl)
  exact ⟨_, _, _, hreach, rfl, rfl, rfl, rfl⟩

end Store

end SnapshotLedger
