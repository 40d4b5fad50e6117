import SnapshotLedger.Json.Basic
import SnapshotLedger.Proofs.Entries

/-!
# The strings of documents

The strings of a document are those that stand where values stand, keys excepted (`strings`). Of members with one key an
object keeps the last, so that it has no strings but those of the members that it was made of (`mem_of_mem_ofMembers`).
-/

namespace SnapshotLedger.Json

mutual

/-- The strings in the document, without the keys of objects. -/
def strings : Json → List String
  | null | bool _ | integer _ | float _ => []
  | string s => [s]
  | array vs => stringsItems vs
  | object ms => stringsMembers ms

/-- The strings in items. -/
def stringsItems : List Json → List String
  | [] => []
  | v :: vs => strings v ++ stringsItems vs

/-- The strings in the values of members. -/
def stringsMembers : List (String × Json) → List String
  | [] => []
  | (_, v) :: ms => strings v ++ stringsMembers ms

end

/-- The strings of members are those of their values. -/
theorem mem_stringsMembers {s : String} {ms : List (String × Json)} :
    s ∈ stringsMembers ms ↔ ∃ e ∈ ms, s ∈ e.2.strings :=
  mem_appended_iff rfl fun _ _ => rfl

/-- A value that is put under a key stands there, and the others stay. -/
theorem mem_put {key : String} {value : Json} {e : String × Json} {ms : List (String × Json)}
    (h : e ∈ put key value ms) :
    e = (key, value) ∨ e ∈ ms := by
  induction ms with
  | nil => exact .inl (List.mem_singleton.1 h)
  | cons f ms ih =>
    rw [put] at h
    split at h
    · rcases List.mem_cons.1 h with rfl | h
      · exact .inl rfl
      · exact .inr (List.mem_cons_of_mem _ h)
    · rcases List.mem_cons.1 h with rfl | h
      · exact .inr List.mem_cons_self
      · exact (ih h).imp id (List.mem_cons_of_mem _)

/-- The members of an object are among those that it was made of. -/
theorem mem_of_mem_ofMembers {e : String × Json} {ms : List (String × Json)} (h : e ∈ ofMembers ms) : e ∈ ms := by
  have hfold : ∀ done, e ∈ ms.foldl (fun m e => put e.1 e.2 m) done → e ∈ done ∨ e ∈ ms := by
    clear h
    induction ms with
    | nil => exact fun _ => .inl
    | cons f ms ih =>
      intro done h
      rcases ih _ h with h | h
      · exact (mem_put h).elim (fun heq => .inr (heq ▸ List.mem_cons_self)) .inl
      · exact .inr (List.mem_cons_of_mem _ h)
  exact (hfold [] h).resolve_left List.not_mem_nil

end SnapshotLedger.Json
