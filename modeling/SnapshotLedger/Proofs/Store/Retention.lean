import Mathlib.Data.Finset.Card
import Mathlib.Data.Prod.Lex
import Mathlib.Data.String.Basic
import SnapshotLedger.Proofs.Store.Invariant
import SnapshotLedger.Sorting

/-!
# Retention keeps the newest run keys

The height of a run key among the rows of its task is the latest instant at which one of its rows was created,
and the greatest number of its rows where instants are equal. Its rank is the number of run keys that are
higher. Pruning removes exactly the rows of the task whose run keys have a rank that is not below the number to
be kept.
-/

namespace SnapshotLedger

namespace Store

/-! ## Heights and ranks -/

/-- The microseconds from the start of 1970 to the instant stored in the row. -/
def Row.micros (r : Row) : Int := ((Timestamp.ofStored? r.createdAt).map Timestamp.micros).getD 0

/-- The rows of a run key. -/
def ownRows (rows : List Row) (runKey : String) : List Row := rows.filter (·.runKey = runKey)

/-- The latest instant and the greatest number among the rows of a run key that has some, the instant counting first. -/
def height (rows : List Row) (runKey : String) : Int ×ₗ Nat :=
  toLex (((ownRows rows runKey).map Row.micros).max?.getD 0, ((ownRows rows runKey).map Row.seq).max?.getD 0)

/-- The run keys of some rows as a set. -/
def keySet (rows : List Row) : Finset String := (rows.map Row.runKey).toFinset

/-- The number of run keys that are higher than one run key. -/
def rank (rows : List Row) (runKey : String) : Nat :=
  ((keySet rows).filter fun k => height rows runKey < height rows k).card

/-- Whether a row is removed when only so many run keys of a task are kept. -/
def Table.loses (t : Table) (workflow task : String) (keep : Nat) (r : Row) : Bool :=
  r.isOfTask workflow task && decide (keep ≤ rank (t.group workflow task) r.runKey)

namespace RetentionAux

/-! ## Greatest elements -/

/-- Taking the greater one again and again from the least element ends with the greatest of some values. -/
theorem foldl_max_spec {α : Type} [LinearOrder α] (f : Row → α) {least : α} (hleast : ∀ x, least ≤ x) {l : List Row}
    (hl : l ≠ []) : (∃ r ∈ l, f r = l.foldl (fun a r => max a (f r)) least) ∧
      ∀ r ∈ l, f r ≤ l.foldl (fun a r => max a (f r)) least := by
  have hfold : ∀ (l : List Row) (a : α), a ≤ l.foldl (fun a r => max a (f r)) a ∧
      (∀ r ∈ l, f r ≤ l.foldl (fun a r => max a (f r)) a) ∧
      (l.foldl (fun a r => max a (f r)) a = a ∨ ∃ r ∈ l, f r = l.foldl (fun a r => max a (f r)) a) := by
    intro l
    induction l with
    | nil => exact fun a => ⟨le_rfl, fun _ h => absurd h List.not_mem_nil, .inl rfl⟩
    | cons r l ih =>
      intro a
      obtain ⟨hstart, hall, hreached⟩ := ih (max a (f r))
      rw [List.foldl_cons]
      refine ⟨(le_max_left _ _).trans hstart, fun s hs => ?_, ?_⟩
      · rcases List.mem_cons.1 hs with rfl | hs
        · exact (le_max_right _ _).trans hstart
        · exact hall s hs
      · rcases hreached with heq | ⟨s, hs, heq⟩
        · rw [heq]
          rcases max_choice a (f r) with hmax | hmax
          · exact .inl hmax
          · exact .inr ⟨r, List.mem_cons_self, hmax.symm⟩
        · exact .inr ⟨s, List.mem_cons_of_mem _ hs, heq⟩
  obtain ⟨-, hall, hreached⟩ := hfold l least
  refine ⟨?_, hall⟩
  rcases hreached with heq | hsome
  · obtain ⟨r, l, rfl⟩ := List.exists_cons_of_ne_nil hl
    refine ⟨r, List.mem_cons_self, ?_⟩
    rw [heq]
    exact le_antisymm (heq ▸ hall r List.mem_cons_self) (hleast _)
  · exact hsome

/-- The value of a row is the greatest one if no row has a greater one. -/
theorem max?_map {α : Type} [LinearOrder α] (f : Row → α) {l : List Row} {r : Row} (hr : r ∈ l)
    (h : ∀ s ∈ l, f s ≤ f r) :
    (l.map f).max? = some (f r) := by
  refine List.max?_eq_some_iff.2 ⟨List.mem_map_of_mem hr, ?_⟩
  intro x hx
  obtain ⟨s, hs, rfl⟩ := List.mem_map.1 hx
  exact h s hs

/-- The later of two stored times is the greater one. -/
theorem later_eq_max (a b : String) : later a b = max a b := by
  unfold later
  split
  · next h => exact (max_eq_right (le_of_lt h)).symm
  · next h => exact (max_eq_left (not_lt.1 h)).symm

/-! ## Standings and heights -/

/-- Whether a run key stands strictly before another. -/
def above (a b : Standing) : Bool := b.createdAt < a.createdAt || (a.createdAt = b.createdAt && b.seq < a.seq)

/-- A run key that stands before another one with another number stands strictly before it. -/
theorem above_of_before {a b : Standing} (h : a.before b = true) (hne : a.seq ≠ b.seq) : above a b = true := by
  simp only [Standing.before, above, Bool.or_eq_true, Bool.and_eq_true, decide_eq_true_eq] at h ⊢
  exact h.imp_right fun ⟨heq, hle⟩ => ⟨heq, by omega⟩

/-- Of two run keys only one stands strictly before the other. -/
theorem above_asymm (a b : Standing) (h : above a b = true) : above b a = false := by
  rw [Bool.eq_false_iff]
  simp only [above, Bool.or_eq_true, Bool.and_eq_true, decide_eq_true_eq, ne_eq] at h ⊢
  rintro (hlt | ⟨heq, hlt⟩) <;> rcases h with hlt' | ⟨heq', hlt'⟩
  · exact lt_asymm hlt hlt'
  · exact lt_irrefl _ (heq' ▸ hlt)
  · exact lt_irrefl _ (heq ▸ hlt')
  · omega

/-- Of two run keys one stands before the other. -/
theorem before_total (a b : Standing) : a.before b = true ∨ b.before a = true := by
  simp only [Standing.before, Bool.or_eq_true, Bool.and_eq_true, decide_eq_true_eq]
  rcases lt_trichotomy a.createdAt b.createdAt with hlt | heq | hlt
  · exact .inr (.inl hlt)
  · exact (Nat.le_total b.seq a.seq).imp (fun hle => .inr ⟨heq, hle⟩) fun hle => .inr ⟨heq.symm, hle⟩
  · exact .inl (.inl hlt)

/-- What stands before something that stands before a run key stands before it. -/
theorem before_trans (a b c : Standing) (hab : a.before b = true) (hbc : b.before c = true) : a.before c = true := by
  simp only [Standing.before, Bool.or_eq_true, Bool.and_eq_true, decide_eq_true_eq] at hab hbc ⊢
  rcases hab with hab | ⟨hab, hle⟩
  · rcases hbc with hbc | ⟨hbc, -⟩
    · exact .inl (lt_trans hbc hab)
    · exact .inl (hbc ▸ hab)
  · rw [hab]
    exact hbc.imp_right fun ⟨heq, hle'⟩ => ⟨heq, hle'.trans hle⟩

/-- Dated rows are ordered by their stored times as by their instants. -/
theorem createdAt_lt_iff {r s : Row} (hr : r.Dated) (hs : s.Dated) :
    r.createdAt < s.createdAt ↔ r.micros < s.micros := by
  have hmicros : ∀ {u : Row} {time : Timestamp}, time.stored? = some u.createdAt → u.micros = time.micros := by
    intro u time hstored
    rw [Row.micros, Timestamp.ofStored?_of_stored? hstored, Option.map_some, Option.getD_some, Timestamp.floored,
      Timestamp.micros, Int.mul_ediv_cancel _ (by decide)]
  obtain ⟨time, hera, hstored⟩ := hr
  obtain ⟨time', hera', hstored'⟩ := hs
  rw [hmicros hstored, hmicros hstored']
  exact Timestamp.stored_lt_iff hera hera' hstored hstored'

/-- Dated rows have the same stored time when they have the same instant, cut to the microsecond. -/
theorem createdAt_eq_iff {r s : Row} (hr : r.Dated) (hs : s.Dated) :
    r.createdAt = s.createdAt ↔ r.micros = s.micros := by
  have hlt := createdAt_lt_iff hr hs
  have hgt := createdAt_lt_iff hs hr
  constructor
  · intro h
    exact le_antisymm (not_lt.1 fun h' => (hgt.2 h').ne h.symm) (not_lt.1 fun h' => (hlt.2 h').ne h)
  · intro h
    exact le_antisymm (not_lt.1 fun h' => (hgt.1 h').ne h.symm) (not_lt.1 fun h' => (hlt.1 h').ne h)

/-- The rows of a run key are some of the rows. -/
theorem mem_ownRows {rows : List Row} {runKey : String} {r : Row} :
    r ∈ ownRows rows runKey ↔ r ∈ rows ∧ r.runKey = runKey := by
  simp only [ownRows, List.mem_filter, decide_eq_true_eq]

/-- A run key with rows has the standing of its latest row and of its last one. -/
theorem exists_standing {rows : List Row} {runKey : String} (hkey : runKey ∈ keySet rows) :
    ∃ latest ∈ ownRows rows runKey, ∃ last ∈ ownRows rows runKey,
      standing rows runKey = ⟨runKey, latest.createdAt, last.seq⟩ ∧
      ∀ r ∈ ownRows rows runKey, r.createdAt ≤ latest.createdAt ∧ r.seq ≤ last.seq := by
  have hne : ownRows rows runKey ≠ [] := by
    rw [keySet, List.mem_toFinset, List.mem_map] at hkey
    obtain ⟨r, hr, heq⟩ := hkey
    exact List.ne_nil_of_mem (mem_ownRows.2 ⟨hr, heq⟩)
  have hempty : ∀ x : String, "" ≤ x :=
    fun x => not_lt.1 fun h => List.not_lt_nil x.toList (String.lt_iff_toList_lt.1 h)
  obtain ⟨⟨latest, hlatest, hlatestEq⟩, hlatestLe⟩ := foldl_max_spec Row.createdAt hempty hne
  obtain ⟨⟨last, hlast, hlastEq⟩, hlastLe⟩ := foldl_max_spec Row.seq Nat.zero_le hne
  refine ⟨latest, hlatest, last, hlast, ?_, fun r hr => ?_⟩
  · rw [hlatestEq, hlastEq]
    simp only [standing, later_eq_max, ownRows]
  · rw [hlatestEq, hlastEq]
    exact ⟨hlatestLe r hr, hlastLe r hr⟩

/-- The standing of a run key with rows is that of its latest row and of its last one, and so is its height. -/
theorem standing_spec {rows : List Row} (hdated : ∀ r ∈ rows, r.Dated) {runKey : String} (hkey : runKey ∈ keySet rows) :
    ∃ latest ∈ rows, ∃ last ∈ rows, latest.Dated ∧ last.runKey = runKey ∧
      standing rows runKey = ⟨runKey, latest.createdAt, last.seq⟩ ∧
      height rows runKey = toLex (latest.micros, last.seq) := by
  obtain ⟨latest, hlatest, last, hlast, hstanding, hgreatest⟩ := exists_standing hkey
  have hlatestRow := mem_ownRows.1 hlatest
  have hlastRow := mem_ownRows.1 hlast
  refine ⟨latest, hlatestRow.1, last, hlastRow.1, hdated latest hlatestRow.1, hlastRow.2, hstanding, ?_⟩
  have hmicros : ((ownRows rows runKey).map Row.micros).max? = some latest.micros := by
    refine max?_map Row.micros hlatest fun r hr => Int.not_lt.1 fun hlt => ?_
    have hlate := (createdAt_lt_iff (hdated latest hlatestRow.1) (hdated r (mem_ownRows.1 hr).1)).2 hlt
    exact absurd (hgreatest r hr).1 (not_le.2 hlate)
  have hseq := max?_map Row.seq hlast fun r hr => (hgreatest r hr).2
  rw [height, hmicros, hseq]
  rfl

/-- A run key stands strictly before another exactly when it is higher. -/
theorem above_standing_iff {rows : List Row} (hdated : ∀ r ∈ rows, r.Dated) {a b : String} (ha : a ∈ keySet rows)
    (hb : b ∈ keySet rows) : above (standing rows a) (standing rows b) = true ↔ height rows b < height rows a := by
  obtain ⟨latest, -, last, -, hlatest, -, hstanding, hheight⟩ := standing_spec hdated ha
  obtain ⟨latest', -, last', -, hlatest', -, hstanding', hheight'⟩ := standing_spec hdated hb
  have hlt := createdAt_lt_iff hlatest' hlatest
  have heq := (createdAt_eq_iff hlatest hlatest').trans eq_comm
  rw [hstanding, hstanding', hheight, hheight', Prod.Lex.toLex_lt_toLex]
  simp only [above, Bool.or_eq_true, Bool.and_eq_true, decide_eq_true_eq, hlt, heq]

/-! ## The ranking -/

/-- Every run key stands once. -/
theorem nodup_runKeys (rows : List Row) : (runKeys rows).Nodup := by
  induction rows with
  | nil => exact List.nodup_nil
  | cons r rows ih =>
    refine List.nodup_cons.2 ⟨fun hmem => ?_, ih.filter _⟩
    simp only [List.mem_filter, ne_eq, decide_not, decide_true, Bool.not_true, Bool.false_eq_true, and_false] at hmem

/-- The run keys are those of the rows. -/
theorem toFinset_runKeys (rows : List Row) : (runKeys rows).toFinset = keySet rows := by
  induction rows with
  | nil => rfl
  | cons r rows ih =>
    unfold keySet at ih ⊢
    ext k
    rw [runKeys, List.map_cons, List.toFinset_cons, List.toFinset_cons, ← ih]
    simp only [Finset.mem_insert, List.mem_toFinset, List.mem_filter, decide_eq_true_eq]
    by_cases heq : k = r.runKey
    · simp only [heq, true_or]
    · simp only [heq, false_or, ne_eq, not_false_eq_true, and_true]

/-- Run keys with different rows have different last rows. -/
theorem standing_seq_ne {rows : List Row} (hdated : ∀ r ∈ rows, r.Dated)
    (hnumbered : rows.Pairwise fun r s => r.seq < s.seq) {a b : String} (ha : a ∈ keySet rows) (hb : b ∈ keySet rows)
    (hne : a ≠ b) : (standing rows a).seq ≠ (standing rows b).seq := by
  obtain ⟨_, -, last, hmem, -, hkey, hstanding, -⟩ := standing_spec hdated ha
  obtain ⟨_, -, last', hmem', -, hkey', hstanding', -⟩ := standing_spec hdated hb
  rw [hstanding, hstanding']
  intro heq
  have hone : rows.Pairwise fun r s => r.seq = s.seq → r = s := hnumbered.imp fun hlt h => absurd h (Nat.ne_of_lt hlt)
  have hback : rows.Pairwise fun r s => s.seq = r.seq → s = r :=
    hnumbered.imp fun hlt h => absurd h (Nat.ne_of_gt hlt)
  have hsame := List.Pairwise.forall_of_forall_of_flip (fun _ _ _ => rfl) hone hback hmem hmem' heq
  exact hne (hkey.symm.trans (hsame ▸ hkey'))

/-- The standings in order, each strictly before those behind it. -/
theorem pairwise_above {rows : List Row} (hdated : ∀ r ∈ rows, r.Dated)
    (hnumbered : rows.Pairwise fun r s => r.seq < s.seq) :
    (Sorting.sortBy Standing.before ((runKeys rows).map (standing rows))).Pairwise fun a b => above a b = true := by
  have hmem : ∀ {k}, k ∈ runKeys rows → k ∈ keySet rows := fun hk => toFinset_runKeys rows ▸ List.mem_toFinset.2 hk
  have hseq : ((runKeys rows).map (standing rows)).Pairwise fun a b => a.seq ≠ b.seq := by
    refine List.pairwise_map.2 ((nodup_runKeys rows).imp_of_mem fun ha hb hne => ?_)
    exact standing_seq_ne hdated hnumbered (hmem ha) (hmem hb) hne
  have hsorted := Sorting.pairwise_sortBy before_total before_trans ((runKeys rows).map (standing rows))
  have hperm := Sorting.perm_sortBy Standing.before ((runKeys rows).map (standing rows))
  have hseq' := (hperm.pairwise_iff fun {_ _} hne => Ne.symm hne).2 hseq
  exact (hsorted.and hseq').imp fun h => above_of_before h.1 h.2

/-- Counting run keys counts each of them once. -/
theorem countP_runKeys (rows : List Row) (p : String → Bool) :
    (runKeys rows).countP p = ((keySet rows).filter fun k => p k = true).card := by
  rw [List.countP_eq_length_filter, ← List.toFinset_card_of_nodup ((nodup_runKeys rows).filter _), List.toFinset_filter,
    toFinset_runKeys]

/-- The rank counts the standings strictly before. -/
theorem countP_above {rows : List Row} (hdated : ∀ r ∈ rows, r.Dated) {runKey : String} (hkey : runKey ∈ keySet rows) :
    (Sorting.sortBy Standing.before ((runKeys rows).map (standing rows))).countP (above · (standing rows runKey)) =
      rank rows runKey := by
  rw [(Sorting.perm_sortBy Standing.before _).countP_eq, List.countP_map, countP_runKeys, rank]
  have hfilter : (keySet rows).filter (fun k => above (standing rows k) (standing rows runKey) = true) =
      (keySet rows).filter fun k => height rows runKey < height rows k :=
    Finset.filter_congr fun k hk => above_standing_iff hdated hk hkey
  rw [← hfilter]
  rfl

/-- The first run keys of the ranking are those whose rank is small enough. -/
theorem mem_take_ranking {rows : List Row} (hdated : ∀ r ∈ rows, r.Dated)
    (hnumbered : rows.Pairwise fun r s => r.seq < s.seq) (n : Nat) {runKey : String} (hkey : runKey ∈ keySet rows) :
    runKey ∈ (ranking rows).take n ↔ rank rows runKey < n := by
  have hperm := Sorting.perm_sortBy Standing.before ((runKeys rows).map (standing rows))
  have hmem : standing rows runKey ∈ Sorting.sortBy Standing.before ((runKeys rows).map (standing rows)) := by
    refine hperm.mem_iff.2 (List.mem_map_of_mem ?_)
    rw [← toFinset_runKeys, List.mem_toFinset] at hkey
    exact hkey
  have htake := Sorting.mem_take_iff above_asymm (pairwise_above hdated hnumbered) (standing rows runKey) n
  rw [countP_above hdated hkey] at htake
  rw [ranking, ← List.map_take]
  constructor
  · intro h
    obtain ⟨st, hst, heq⟩ := List.mem_map.1 h
    obtain ⟨k, -, rfl⟩ := List.mem_map.1 (hperm.mem_iff.1 (List.mem_of_mem_take hst))
    obtain rfl : k = runKey := heq
    exact (htake.1 hst).2
  · exact fun h => List.mem_map.2 ⟨_, htake.2 ⟨hmem, h⟩, rfl⟩

/-- The ranking has every run key once. -/
theorem perm_ranking (rows : List Row) : (ranking rows).Perm (runKeys rows) := by
  have hperm := (Sorting.perm_sortBy Standing.before ((runKeys rows).map (standing rows))).map Standing.runKey
  rw [List.map_map] at hperm
  exact hperm.trans (.of_eq (List.map_id' (runKeys rows)))

/-! ## The run keys that are kept -/

/-- The rows whose run keys have a rank below a number. -/
def keptRows (rows : List Row) (n : Nat) : List Row := rows.filter fun r => rank rows r.runKey < n

/-- In a strict order, fewer run keys stand before a run key than before one that it stands before. -/
theorem card_before_lt {p : String → String → Prop} [DecidableRel p] (irrefl : ∀ a, ¬p a a)
    (trans : ∀ a b c, p a b → p b c → p a c) {keys : Finset String} {a b : String} (ha : a ∈ keys) (hab : p a b) :
    (keys.filter (p · a)).card < (keys.filter (p · b)).card := by
  refine Finset.card_lt_card (Finset.ssubset_iff_of_subset ?_ |>.2 ⟨a, ?_, ?_⟩)
  · intro c hc
    rw [Finset.mem_filter] at hc ⊢
    exact ⟨hc.1, trans c a b hc.2 hab⟩
  · exact Finset.mem_filter.2 ⟨ha, hab⟩
  · rw [Finset.mem_filter]
    exact fun hmem => irrefl a hmem.2

/-- A higher run key has a smaller rank. -/
theorem rank_lt_rank {rows : List Row} {a b : String} (ha : a ∈ keySet rows) (h : height rows b < height rows a) :
    rank rows a < rank rows b :=
  card_before_lt (p := fun a b => height rows b < height rows a) (fun _ => lt_irrefl _)
    (fun _ _ _ hab hbc => hbc.trans hab) ha h

/-- A run key that is kept keeps all its rows. -/
theorem ownRows_keptRows {rows : List Row} {n : Nat} {k : String} (hk : rank rows k < n) :
    ownRows (keptRows rows n) k = ownRows rows k := by
  unfold ownRows keptRows
  rw [List.filter_filter]
  refine List.filter_congr fun r _ => ?_
  by_cases heq : r.runKey = k
  · rw [heq]
    simp only [decide_true, hk, Bool.and_self]
  · simp only [heq, decide_false, Bool.false_and]

/-- A run key that is kept stays as high as it was. -/
theorem height_keptRows {rows : List Row} {n : Nat} {k : String} (hk : rank rows k < n) :
    height (keptRows rows n) k = height rows k := by
  rw [height, height, ownRows_keptRows hk]

/-- The run keys of the rows that are kept. -/
theorem mem_keySet_keptRows {rows : List Row} {n : Nat} {k : String} :
    k ∈ keySet (keptRows rows n) ↔ k ∈ keySet rows ∧ rank rows k < n := by
  simp only [keySet, keptRows, List.mem_toFinset, List.mem_map, List.mem_filter, decide_eq_true_eq]
  constructor
  · rintro ⟨r, ⟨hr, hlt⟩, rfl⟩
    exact ⟨⟨r, hr, rfl⟩, hlt⟩
  · rintro ⟨⟨r, hr, rfl⟩, hlt⟩
    exact ⟨r, ⟨hr, hlt⟩, rfl⟩

/-- A run key that is kept keeps its rank, since all that are higher are kept too. -/
theorem rank_keptRows {rows : List Row} {n : Nat} {k : String} (hk : rank rows k < n) :
    rank (keptRows rows n) k = rank rows k := by
  unfold rank
  congr 1
  ext a
  rw [Finset.mem_filter, Finset.mem_filter, mem_keySet_keptRows, height_keptRows hk]
  constructor
  · rintro ⟨⟨ha, hlt⟩, hheight⟩
    rw [height_keptRows hlt] at hheight
    exact ⟨ha, hheight⟩
  · rintro ⟨ha, hheight⟩
    have hlt : rank rows a < n := (rank_lt_rank ha hheight).trans hk
    rw [height_keptRows hlt]
    exact ⟨⟨ha, hlt⟩, hheight⟩

/-- As many run keys are kept as asked for, if there are as many. -/
theorem card_keySet_keptRows {rows : List Row} (hdated : ∀ r ∈ rows, r.Dated)
    (hnumbered : rows.Pairwise fun r s => r.seq < s.seq) (n : Nat) :
    (keySet (keptRows rows n)).card = min n (keySet rows).card := by
  have hnodup : (ranking rows).Nodup := (perm_ranking rows).nodup_iff.2 (nodup_runKeys rows)
  have hset : keySet (keptRows rows n) = ((ranking rows).take n).toFinset := by
    ext k
    rw [mem_keySet_keptRows, List.mem_toFinset]
    constructor
    · exact fun ⟨hk, hlt⟩ => (mem_take_ranking hdated hnumbered n hk).2 hlt
    · intro hk
      have hkey : k ∈ keySet rows := by
        rw [← toFinset_runKeys, List.mem_toFinset]
        exact (perm_ranking rows).mem_iff.1 (List.mem_of_mem_take hk)
      exact ⟨hkey, (mem_take_ranking hdated hnumbered n hkey).1 hk⟩
  rw [hset, List.toFinset_card_of_nodup (hnodup.sublist (List.take_sublist _ _)), List.length_take,
    (perm_ranking rows).length_eq, ← toFinset_runKeys, List.toFinset_card_of_nodup (nodup_runKeys rows)]

end RetentionAux

open RetentionAux

namespace Table

variable {t : Table} {workflow task : String}

/-- The rows of a task are dated. -/
theorem Sound.dated_group (h : t.Sound) (workflow task : String) : ∀ r ∈ t.group workflow task, r.Dated :=
  fun r hr => h.dated r (List.mem_filter.1 hr).1

/-- The rows of a task have ascending numbers. -/
theorem Sound.numbered_group (h : t.Sound) (workflow task : String) :
    (t.group workflow task).Pairwise fun r s => r.seq < s.seq := h.numbered.filter _

/-- The run key of a row of a task is among those of the task. -/
theorem mem_keySet_group {r : Row} (hr : r ∈ t.rows) (htask : r.isOfTask workflow task = true) :
    r.runKey ∈ keySet (t.group workflow task) :=
  List.mem_toFinset.2 (List.mem_map_of_mem (List.mem_filter.2 ⟨hr, htask⟩))

/-- A run key is kept exactly when its rank is below the number to be kept. -/
theorem Sound.contains_keptRunKeys (h : t.Sound) (keep : Nat) {r : Row} (hr : r ∈ t.rows)
    (htask : r.isOfTask workflow task = true) :
    (t.keptRunKeys workflow task keep).contains r.runKey = decide (rank (t.group workflow task) r.runKey < keep) := by
  rw [Bool.eq_iff_iff, List.contains_iff_mem, decide_eq_true_eq]
  exact mem_take_ranking (h.dated_group workflow task) (h.numbered_group workflow task) keep (mem_keySet_group hr htask)

/-- Pruning removes exactly the rows that lose. -/
theorem Sound.rows_prune (h : t.Sound) (workflow task : String) (keep : Nat) :
    (t.prune workflow task keep).rows = t.rows.filter fun r => !t.loses workflow task keep r := by
  refine List.filter_congr fun r hr => ?_
  dsimp only
  unfold loses
  by_cases htask : r.isOfTask workflow task = true
  · rw [h.contains_keptRunKeys keep hr htask]
    simp only [htask, Bool.true_and, ← decide_not, Nat.not_lt]
  · simp only [htask, Bool.false_and]

/-- Pruning leaves the rows of the task whose run keys are kept. -/
theorem Sound.group_prune (h : t.Sound) (workflow task : String) (keep : Nat) :
    (t.prune workflow task keep).group workflow task = keptRows (t.group workflow task) keep := by
  change (t.prune workflow task keep).rows.filter (·.isOfTask workflow task) =
    (t.rows.filter (·.isOfTask workflow task)).filter fun r => rank (t.group workflow task) r.runKey < keep
  rw [h.rows_prune, List.filter_filter, List.filter_filter]
  refine List.filter_congr fun r _ => ?_
  by_cases htask : r.isOfTask workflow task = true
  · simp only [htask, loses, Bool.true_and, Bool.and_true, ← decide_not, Nat.not_le]
  · simp only [htask, Bool.false_and, Bool.and_false]

/-- Pruning twice leaves what pruning to the smaller number leaves. -/
theorem Sound.prune_prune (h : t.Sound) (workflow task : String) (m n : Nat) :
    (t.prune workflow task m).prune workflow task n = t.prune workflow task (min m n) := by
  have hnext : ∀ (u : Table) (k : Nat), (u.prune workflow task k).next = u.next := fun _ _ => rfl
  have hrows : ((t.prune workflow task m).prune workflow task n).rows = (t.prune workflow task (min m n)).rows := by
    have hpruned : (t.prune workflow task m).Sound := h.erase _
    rw [hpruned.rows_prune, h.rows_prune workflow task m, h.rows_prune workflow task (min m n), List.filter_filter]
    refine List.filter_congr fun r _ => ?_
    unfold loses
    rw [h.group_prune]
    by_cases htask : r.isOfTask workflow task = true
    · by_cases hlt : rank (t.group workflow task) r.runKey < m
      · rw [rank_keptRows hlt]
        simp only [htask, Bool.true_and, ← decide_not, Nat.not_le, hlt, decide_true, Bool.and_true, lt_inf_iff,
          true_and]
      · have hmin : ¬rank (t.group workflow task) r.runKey < min m n := fun hlt' => hlt (lt_inf_iff.1 hlt').1
        simp only [htask, Bool.true_and, ← decide_not, Nat.not_le, hlt, hmin, decide_false, Bool.and_false]
    · simp only [htask, Bool.false_and, Bool.and_self]
  have heq : ∀ {u v : Table}, u.rows = v.rows → u.next = v.next → u = v := by
    intro u v hr hn
    cases u
    cases v
    cases hr
    cases hn
    rfl
  exact heq hrows rfl

end Table

/-! ## Pruning a store -/

/-- The number of rows removed is the number of rows that lose. -/
theorem length_sub_length_prune {t : Table} (h : t.Sound) (workflow task : String) (keep : Nat) :
    t.rows.length - (t.prune workflow task keep).rows.length = t.rows.countP (t.loses workflow task keep) := by
  have hsum := List.length_eq_countP_add_countP (t.loses workflow task keep) (l := t.rows)
  rw [h.rows_prune, ← List.countP_eq_length_filter]
  simp only [Bool.not_eq_true, Bool.decide_eq_false] at hsum
  omega

/-- Pruning a table to a positive number does not fail. -/
theorem prune_mk (t : Table) (workflow task : String) {keep : Int} (hkeep : 0 < keep) :
    prune ⟨some t⟩ workflow task keep = .ok (t.rows.length - (t.prune workflow task keep.toNat).rows.length,
      ⟨some (t.prune workflow task keep.toNat)⟩) := by
  unfold prune
  rw [if_neg (not_le.2 hkeep)]
  rfl

/-- Pruning keeps exactly the newest run keys. Unless the number to be kept is positive, nothing happens.
Otherwise the rows that go are those of the task whose run keys have a rank that is not below the number, their
number is the answer, and as many run keys are left as are to be kept, if there were as many. Pruning twice
leaves what pruning to the smaller number leaves. -/
theorem prune_keeps_newest {s : Store} (h : Reachable s) (workflow task : String) :
    (∀ keep ≤ 0, s.prune workflow task keep = .ok (0, s)) ∧
      ∀ t, s.table = some t →
        (∀ keep : Int, 0 < keep → ∃ t',
          s.prune workflow task keep = .ok (t.rows.countP (t.loses workflow task keep.toNat), ⟨some t'⟩) ∧
            t'.rows = t.rows.filter (fun r => !t.loses workflow task keep.toNat r) ∧ t'.next = t.next ∧
            (keySet (t'.group workflow task)).card = min keep.toNat (keySet (t.group workflow task)).card) ∧
        ∀ m n : Int, 0 < m → 0 < n → ∃ removed removed' removedAtOnce s' s'',
          s.prune workflow task m = .ok (removed, s') ∧ s'.prune workflow task n = .ok (removed', s'') ∧
            s.prune workflow task (min m n) = .ok (removedAtOnce, s'') := by
  constructor
  · intro keep hkeep
    rw [prune, if_pos hkeep]
  intro t htable
  have ht : t.Sound := h.sound t htable
  obtain rfl : s = ⟨some t⟩ := by
    cases s
    cases htable
    rfl
  constructor
  · intro keep hkeep
    refine ⟨t.prune workflow task keep.toNat, ?_, ht.rows_prune workflow task _, rfl, ?_⟩
    · rw [prune_mk t workflow task hkeep, length_sub_length_prune ht]
    · rw [ht.group_prune]
      exact card_keySet_keptRows (ht.dated_group workflow task) (ht.numbered_group workflow task) _
  · intro m n hm hn
    have hmin : (min m n).toNat = min m.toNat n.toNat := by omega
    have hboth := prune_mk t workflow task (lt_min hm hn)
    rw [hmin, ← ht.prune_prune] at hboth
    exact ⟨_, _, _, _, _, prune_mk t workflow task hm, prune_mk _ workflow task hn, hboth⟩

/-- Two run keys of one task were written at the same instant, and the one written last is kept. -/
theorem prune_keeps_newest_of_two : ∃ s t t', Reachable s ∧ s.table = some t ∧ (keySet (t.group "w" "t")).card = 2 ∧
    s.prune "w" "t" 1 = .ok (t.rows.countP (t.loses "w" "t" 1), ⟨some t'⟩) ∧
    t'.rows = t.rows.filter (fun r => !t.loses "w" "t" 1 r) ∧ (keySet (t'.group "w" "t")).card = 1 := by
  have hera : (⟨0, 0⟩ : Timestamp).InEra := by decide
  have hfirst := Reachable.write (.migrate .blank) hera
    (show Store.write _ ⟨1⟩ ⟨"w", "t", "a", none⟩ [] none ⟨0, 0⟩ = .ok (_, _) from rfl)
  have hreach := Reachable.write hfirst hera
    (show Store.write _ ⟨2⟩ ⟨"w", "t", "b", some 0⟩ [] none ⟨0, 0⟩ = .ok (_, _) from rfl)
  obtain ⟨t', hprune, hrows, -, hleft⟩ := ((prune_keeps_newest hreach "w" "t").2 _ rfl).1 1 (by decide)
  exact ⟨_, _, t', hreach, rfl, by decide, hprune, hrows, hleft⟩

end Store

end SnapshotLedger
