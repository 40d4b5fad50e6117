import SnapshotLedger.Environment
import SnapshotLedger.Proofs.Entries
import SnapshotLedger.Proofs.Text.Case

/-!
# Variables that an environment gives

Of several variables whose names differ in case alone, listing the variables of an environment keeps the last
(`mem_bindings`), whereas looking one up goes by capitals, and the two agree exactly when the last one has the
value that is looked up (`listed_iff_last_spelling`).
-/

namespace SnapshotLedger

namespace Environment

/-! ## Listing and looking up -/

/-- The entry gives a variable whose name differs from a name in case alone, if at all. -/
def Spells (stem name : String) (e : String × String) : Prop :=
  ∃ other, nameBehind? stem e.1 = some other ∧ Text.lower other = Text.lower name

variable {stem name value : String} {env : Environment}

/-- What an entry is listed as, if it gives a variable at all. -/
def listing? (stem : String) (e : String × String) : Option (String × String) :=
  (nameBehind? stem e.1).map fun name => (Text.lower name, e.2)

/-- An entry is listed under a name in lower case exactly when it spells the name. -/
theorem spells_iff {e : String × String} : Spells stem name e ↔ listing? stem e = some (Text.lower name, e.2) := by
  simp [Spells, listing?, Option.map_eq_some_iff]

/-- Entries that do not spell a name list nothing under it. -/
theorem lookup_listed_eq_none (h : ∀ e ∈ env, ¬Spells stem name e) :
    (env.filterMap (listing? stem)).reverse.lookup (Text.lower name) = none := by
  rw [List.lookup_eq_none_iff]
  intro p hp
  obtain ⟨e, he, heq⟩ := List.mem_filterMap.1 (List.mem_reverse.1 hp)
  obtain ⟨other, hother, rfl⟩ := Option.map_eq_some_iff.1 heq
  rw [bne_iff_ne]
  intro hkey
  exact h e he ⟨other, hother, hkey.symm⟩

/-- Under a name that no entry spells nothing is listed. -/
theorem find?_bindings_eq_none (h : ∀ e ∈ env, ¬Spells stem name e) :
    Entries.find? (Text.lower name) (bindings stem env) = none := by
  rw [bindings, Entries.find?_ofList]
  exact lookup_listed_eq_none h

/-- The last entry that spells a name is the one that is listed. -/
theorem find?_bindings_of_last {front back : Environment} {e : String × String} (he : Spells stem name e)
    (hlast : ∀ f ∈ back, ¬Spells stem name f) :
    Entries.find? (Text.lower name) (bindings stem (front ++ e :: back)) = some e.2 := by
  have hsplit : (front ++ e :: back).filterMap (listing? stem) =
      front.filterMap (listing? stem) ++ (Text.lower name, e.2) :: back.filterMap (listing? stem) := by
    rw [List.filterMap_append, List.filterMap_cons_some (spells_iff.1 he)]
  rw [bindings, Entries.find?_ofList]
  change ((front ++ e :: back).filterMap (listing? stem)).reverse.lookup _ = _
  rw [hsplit, List.reverse_append, List.reverse_cons, List.append_assoc, List.lookup_append,
    lookup_listed_eq_none hlast]
  simp

/-- A name is the stem and what is behind it, which is not nothing. -/
theorem nameBehind?_eq_some_iff {key other : String} :
    nameBehind? stem key = some other ↔ key = stem ++ other ∧ other ≠ "" := by
  have hdrop : ∀ rest : String, (stem ++ rest).toList.drop stem.length = rest.toList := by
    intro rest
    rw [String.toList_append, ← String.length_toList, List.drop_left]
  have hlength : ∀ rest : String, stem.length < (stem ++ rest).length ↔ rest ≠ "" := by
    intro rest
    rw [String.length_append, Nat.lt_add_right_iff_pos, Nat.pos_iff_ne_zero]
    exact String.length_eq_zero_iff.not
  unfold nameBehind?
  constructor
  · intro h
    obtain ⟨hif, hbehind⟩ := Option.ite_none_right_eq_some.1 h
    rw [Bool.and_eq_true, List.isPrefixOf_iff_prefix, decide_eq_true_eq] at hif
    obtain ⟨⟨rest, hrest⟩, hlong⟩ := hif
    obtain rfl : stem ++ String.ofList rest = key := by
      rw [← String.toList_inj, String.toList_append, String.toList_ofList, hrest]
    rw [hdrop, String.ofList_toList, Option.some.injEq] at hbehind
    exact ⟨by rw [hbehind], hbehind ▸ (hlength _).1 hlong⟩
  · rintro ⟨rfl, hother⟩
    have hfront : stem.toList.isPrefixOf (stem ++ other).toList = true := by
      rw [String.toList_append, List.isPrefixOf_iff_prefix]
      exact List.prefix_append _ _
    rw [hfront, decide_eq_true ((hlength other).2 hother), Bool.and_self, if_pos rfl, hdrop, String.ofList_toList]

/-- What is looked up is the value of an entry that spells the name, if neither stem nor name has `=` in it. -/
theorem mem_of_valueOf? (henv : ∀ e ∈ env, '=' ∉ e.1.toList) (hplain : '=' ∉ (stem ++ name).toList) (hname : name ≠ "")
    (h : valueOf? stem env name = some value) : ∃ e ∈ env, Spells stem name e ∧ e.2 = value := by
  have hlength : (Text.upper name).length = name.length := by
    rw [Text.upper, String.length_ofList, List.length_map, String.length_toList]
  have hupper : Text.upper name ≠ "" := by
    intro hempty
    rw [hempty] at hlength
    exact hname (String.length_eq_zero_iff.1 hlength.symm)
  have hplain' : '=' ∉ (stem ++ Text.upper name).toList := by
    rw [String.toList_append, List.mem_append, ← Text.mem_lower rfl (Text.upper name), Text.lower_upper,
      Text.mem_lower rfl]
    rwa [String.toList_append, List.mem_append] at hplain
  rw [valueOf?, find?_eq_lookup hplain' (by simp [hupper]) henv] at h
  exact ⟨_, Entries.mem_of_lookup h, ⟨_, nameBehind?_eq_some_iff.2 ⟨rfl, hupper⟩, Text.lower_upper name⟩, rfl⟩

/-- A name that an entry spells has no `=` in it, and neither has the stem. -/
theorem not_mem_of_spells {e : String × String} (he : '=' ∉ e.1.toList) (h : Spells stem name e) :
    '=' ∉ (stem ++ name).toList := by
  obtain ⟨other, hother, hcase⟩ := h
  rw [(nameBehind?_eq_some_iff.1 hother).1, String.toList_append, List.mem_append, not_or] at he
  have hname : '=' ∉ name.toList := by
    rw [← Text.mem_lower rfl, ← hcase, Text.mem_lower rfl]
    exact he.2
  rw [String.toList_append, List.mem_append, not_or]
  exact ⟨he.1, hname⟩

/-- Of entries that spell a name there is a last one. -/
theorem exists_last (h : ∃ e ∈ env, Spells stem name e) :
    ∃ front e back, env = front ++ e :: back ∧ Spells stem name e ∧ ∀ f ∈ back, ¬Spells stem name f := by
  induction env using List.reverseRecOn with
  | nil =>
    obtain ⟨e, he, -⟩ := h
    cases he
  | append_singleton init last ih =>
    by_cases hlast : Spells stem name last
    · exact ⟨init, last, [], rfl, hlast, nofun⟩
    · obtain ⟨e, he, hspells⟩ := h
      have hinit : e ∈ init := by
        rcases List.mem_append.1 he with he | he
        · exact he
        · exact absurd (List.mem_singleton.1 he ▸ hspells) hlast
      obtain ⟨front, e, back, rfl, hspells, hback⟩ := ih ⟨e, hinit, hspells⟩
      refine ⟨front, e, back ++ [last], by simp, hspells, ?_⟩
      intro f hf
      rcases List.mem_append.1 hf with hf | hf
      · exact hback f hf
      · exact List.mem_singleton.1 hf ▸ hlast

/-- The environment gives a variable a value, and behind it no other value to a variable whose name differs in
case alone. -/
def Gives (stem : String) (env : Environment) (name value : String) : Prop :=
  ∃ front back, env = front ++ (stem ++ name, value) :: back ∧ name ≠ "" ∧ ∀ e ∈ back, Spells stem name e → e.2 = value

/-- A variable that is given and not contradicted behind is listed, with its name in lower case. -/
theorem mem_bindings (h : Gives stem env name value) : (Text.lower name, value) ∈ bindings stem env := by
  obtain ⟨front, back, rfl, hname, hback⟩ := h
  have hspells : Spells stem name (stem ++ name, value) := ⟨name, nameBehind?_eq_some_iff.2 ⟨rfl, hname⟩, rfl⟩
  -- the last entry that spells the name is this one or one behind it, and has its value in either case
  obtain ⟨between, last, behind, hsplit, hlast, hbehind⟩ := exists_last ⟨_, List.mem_cons_self (l := back), hspells⟩
  have hvalue : last.2 = value := by
    have hmem : last ∈ (stem ++ name, value) :: back := hsplit ▸ List.mem_append_right _ List.mem_cons_self
    rcases List.mem_cons.1 hmem with rfl | hmem
    · rfl
    · exact hback last hmem hlast
  have hlisted : Entries.find? (Text.lower name) (bindings stem (front ++ between ++ last :: behind)) = some last.2 :=
    find?_bindings_of_last hlast hbehind
  rw [List.append_assoc, ← hsplit, hvalue] at hlisted
  exact Entries.mem_of_lookup hlisted

/--
What is looked up is what is listed under the name in lower case exactly when the last of the entries that spell
the name has it, and when the name and the stem have no `=` in them.
-/
theorem listed_iff_last_spelling (henv : ∀ e ∈ env, '=' ∉ e.1.toList) (hname : name ≠ "")
    (h : valueOf? stem env name = some value) :
    Entries.find? (Text.lower name) (bindings stem env) = some value ↔
      '=' ∉ (stem ++ name).toList ∧
        ∀ front e back, env = front ++ e :: back → Spells stem name e → (∀ f ∈ back, ¬Spells stem name f) →
        e.2 = value := by
  constructor
  · intro hlisted
    have hsome : ∃ e ∈ env, Spells stem name e := by
      by_contra hnone
      rw [find?_bindings_eq_none fun e he hs => hnone ⟨e, he, hs⟩] at hlisted
      cases hlisted
    refine ⟨?_, ?_⟩
    · obtain ⟨e, he, hspells⟩ := hsome
      exact not_mem_of_spells (henv e he) hspells
    · rintro front e back rfl hspells hback
      rw [find?_bindings_of_last hspells hback] at hlisted
      exact Option.some.inj hlisted
  · rintro ⟨hplain, hall⟩
    obtain ⟨e, he, hspells, -⟩ := mem_of_valueOf? henv hplain hname h
    obtain ⟨front, last, back, rfl, hlast, hback⟩ := exists_last ⟨e, he, hspells⟩
    rw [find?_bindings_of_last hlast hback, hall front last back rfl hlast hback]

example :
    valueOf? usualStem [("RFS_VAR_A", "B=x")] "a=b" = some "x" ∧
      bindings usualStem [("RFS_VAR_A", "B=x")] = [("a", "B=x")] := by
  decide +kernel

/-- A variable in small letters, and behind it one in capitals. -/
def capitalsLast : Environment := [("RFS_VAR_token", "other"), ("RFS_VAR_TOKEN", "secret")]

/-- The variable in capitals is looked up, and as the last of the two it is listed as well. -/
theorem listed_of_capitals_last : valueOf? usualStem capitalsLast "token" = some "secret" ∧
    Entries.find? (Text.lower "token") (bindings usualStem capitalsLast) = some "secret" := by
  have hplain : ∀ e ∈ capitalsLast, '=' ∉ e.1.toList := by decide +kernel
  have hfound : valueOf? usualStem capitalsLast "token" = some "secret" := by decide +kernel
  refine ⟨hfound, (listed_iff_last_spelling hplain (by decide) hfound).2 ⟨by decide +kernel, ?_⟩⟩
  intro front e back heq _ hback
  match front, heq with
  | [], heq =>
    cases heq
    exact absurd ⟨"TOKEN", by decide +kernel, by decide +kernel⟩ (hback ("RFS_VAR_TOKEN", "secret") List.mem_cons_self)
  | [_], heq =>
    cases heq
    rfl
  | _ :: _ :: _, heq => simp [capitalsLast] at heq

/-- The variable in capitals is looked up, but one in small letters behind it is listed in its place. -/
theorem listed_departs_of_capitals_first :
    let env : Environment := [("RFS_VAR_TOKEN", "secret"), ("RFS_VAR_token", "other")]
    (env.map Prod.fst).Nodup ∧ valueOf? usualStem env "token" = some "secret" ∧
      bindings usualStem env = [("token", "other")] := by
  decide +kernel

end Environment

end SnapshotLedger
