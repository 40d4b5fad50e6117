import Mathlib.Data.List.Nodup
import SnapshotLedger.CommandLine.Execution
import SnapshotLedger.Proofs.Environment
import SnapshotLedger.Proofs.Recorder

/-!
# Snapshots hide sensitive variables

A variable whose name is sensitive is hidden in the snapshot that is taken and in the texts that the store keeps
of it, whether it is given with the request or by the environment (`capture_hides_variable`). Two things are out
of reach: the labels of objects, which redaction leaves as they are, and a variable of the environment behind
which another one, whose name differs in case alone, has another value
(`capture_shows_labels_and_contradicted`).
-/

namespace SnapshotLedger

/-- One of the sensitive names occurs in a name, whatever the case of its letters and the blanks around it. -/
def Settings.Marks (s : Settings) (name : String) : Prop :=
  ∃ pattern ∈ s.sensitiveNames, Text.contains (Text.lower name) (Text.lower (Text.trim pattern)) = true

namespace CommandLine

/-! ## Documents of a request -/

/-- A document that was read is well-formed, whether it was held or named. -/
theorem wellFormed_of_readDocument {w : Workspace} {arg : String} {v : Json} (h : readDocument w arg = .ok v) :
    v.WellFormed := by
  unfold readDocument at h
  split at h
  · obtain ⟨text, -, h⟩ := bind_eq_ok h
    exact Json.wellFormed_of_read (mapError_eq_ok h)
  · exact Json.wellFormed_of_read (mapError_eq_ok h)

/-- The text that a value gives a variable: that of a string is the string itself, and that of a number or a
truth value is its JSON. -/
inductive GivesText : Json → String → Prop where
  | string (s : String) : GivesText (.string s) s
  | bool (b : Bool) : GivesText (.bool b) (Json.bool b).compact
  | integer (n : Int) : GivesText (.integer n) (Json.integer n).compact
  | float (x : Binary64) : GivesText (.float x) (Json.float x).compact

/-- A value that gives a variable a text is taken for that text. -/
theorem GivesText.variableText?_eq {v : Json} {text : String} (h : GivesText v text) : variableText? v = some text := by
  cases h <;> rfl

/-- The request gives a variable with a text. -/
def CaptureRequest.Gives (r : CaptureRequest) (w : Workspace) (name value : String) : Prop :=
  ∃ ms v, readDocument w r.bindings = .ok (.object ms) ∧ (name, v) ∈ ms ∧ GivesText v value

/-- What a request that was read consists of. -/
theorem read_eq_ok {w : Workspace} {request : CaptureRequest} {c : CaptureInput} (h : request.read w = .ok c) :
    (∃ v, CaptureRequest.readOwner v = .ok c.owner) ∧
      (∃ v, readDocument w request.bindings = .ok v ∧ readVariables v = .ok c.bindings) ∧
      ∀ spec, c.podSpec = some spec → ∃ arg v, readDocument w arg = .ok v ∧
        CaptureRequest.readPodSpec v = .ok spec := by
  unfold CaptureRequest.read at h
  obtain ⟨identity, -, h⟩ := bind_eq_ok h
  obtain ⟨ownerDoc, -, h⟩ := bind_eq_ok h
  obtain ⟨owner, howner, h⟩ := bind_eq_ok h
  obtain ⟨contextDoc, -, h⟩ := bind_eq_ok h
  obtain ⟨context, -, h⟩ := bind_eq_ok h
  obtain ⟨v, hv, h⟩ := bind_eq_ok h
  obtain ⟨bindings, hbindings, h⟩ := bind_eq_ok h
  dsimp only at h
  split at h
  · next arg _ =>
    obtain ⟨doc, hdoc, h⟩ := bind_eq_ok h
    obtain ⟨fields, hfields, h⟩ := bind_eq_ok h
    cases h
    refine ⟨⟨ownerDoc, howner⟩, ⟨v, hv, hbindings⟩, fun spec hspec => ⟨arg, doc, hdoc, ?_⟩⟩
    rw [hfields, Option.some.inj hspec]
  · cases h
    exact ⟨⟨ownerDoc, howner⟩, ⟨v, hv, hbindings⟩, nofun⟩

/-- A variable that a request gives is among those that are read. -/
theorem mem_bindings_of_gives {w : Workspace} {request : CaptureRequest} {c : CaptureInput} (h : request.read w = .ok c)
    {name value : String} (hgiven : request.Gives w name value) : (name, value) ∈ c.bindings := by
  obtain ⟨-, ⟨doc, hdoc, hbindings⟩, -⟩ := read_eq_ok h
  obtain ⟨ms, v, hms, hmem, htext⟩ := hgiven
  obtain rfl := Except.ok.inj (hms.symm.trans hdoc)
  obtain ⟨l, hl, hbindings⟩ := bind_eq_ok hbindings
  rw [← Except.ok.inj hbindings]
  have hread : readVariable (name, v) = .ok (name, value) := by
    rw [readVariable, htext.variableText?_eq]
  obtain ⟨e, he, hvariable⟩ := mem_mapM_of_eq_ok hl hmem
  obtain rfl := Except.ok.inj (hread.symm.trans hvariable)
  refine Entries.mem_ofList he fun f hf hkey => ?_
  obtain ⟨g, hg, hvariable'⟩ := mem_of_mapM_eq_ok hl hf
  -- Members with one key are one member, so what was read of them is the same.
  have hname : g.1 = name := by
    unfold readVariable at hvariable'
    split at hvariable'
    · rw [← hkey, ← Except.ok.inj hvariable']
    · cases hvariable'
  obtain rfl : g = (name, v) := List.inj_on_of_nodup_map (wellFormed_of_readDocument hdoc).1 hg hmem hname
  rw [← Except.ok.inj (hread.symm.trans hvariable')]

/-- All integers of the owner of a request are signed words. -/
theorem signed_owner {w : Workspace} {request : CaptureRequest} {c : CaptureInput} (h : request.read w = .ok c) :
    c.owner.toField.Signed := by
  obtain ⟨⟨v, hread⟩, -⟩ := read_eq_ok h
  exact Raw.signed_descriptorOfJson v (mapError_eq_ok hread)

/-- The fields of a pod are written as what they are. -/
theorem writable_podSpec {w : Workspace} {request : CaptureRequest} {c : CaptureInput} (h : request.read w = .ok c) :
    ∀ spec, c.podSpec = some spec → spec.Writable := by
  intro spec hspec
  obtain ⟨arg, v, hv, hread⟩ := (read_eq_ok h).2.2 spec hspec
  have hformed := wellFormed_of_readDocument hv
  have hfields := mapError_eq_ok hread
  unfold Fields.ofJson at hfields
  cases v with
  | object ms =>
    cases hfields
    have hentries := Rendered.leafwise_entriesOfJson Rendered.admitsRead_writable ms hformed.2
    exact Rendered.leafwise_entries (Rendered.leafwise_ofList hentries) []
  | null | bool _ | integer _ | float _ | string _ | array _ => cases hfields

/-! ## Secrets of the masker -/

/-- The masker of a snapshot has the marker of the settings, and every variable with a sensitive name is a
secret to it. -/
theorem masker_eq_ok {c : CaptureInput} {settings : Settings} {env : Environment} {m : Masker}
    (h : c.masker settings env = .ok m) :
    m.marker = settings.marker ∧ m.marker.isEmpty = false ∧
      ∀ name value, ((name, value) ∈ c.bindings ∨ Environment.Gives Environment.usualStem env name value) →
        settings.Marks name → Text.isBlank value = false → value ∈ m.secrets := by
  obtain ⟨plain, hplain, h⟩ := bind_eq_ok h
  obtain ⟨hmarker, hfilled, hpatterns⟩ := Masker.create_eq_ok (mapError_eq_ok hplain)
  rw [← Except.ok.inj h]
  have hkept : (plain.withVariables (c.bindings ++ CaptureInput.environmentBindings env)).1.marker = plain.marker :=
    (Masker.foldl_withSecret_spec _ plain).1
  refine ⟨hkept.trans hmarker, by rw [hkept, hmarker]; exact hfilled, ?_⟩
  intro name value hgiven hmarks hblank
  obtain ⟨pattern, hpattern, hcontains⟩ := hmarks
  have hmem := (hpatterns _).2 ⟨pattern, hpattern, rfl⟩
  rcases hgiven with hgiven | hgiven
  · have hsensitive := Masker.isSensitive_of_mem hmem hcontains
    exact Masker.mem_secrets_withVariables (List.mem_append_left _ hgiven) hsensitive hblank
  · rw [← Text.lower_lower] at hcontains
    have hsensitive := Masker.isSensitive_of_mem hmem hcontains
    exact Masker.mem_secrets_withVariables (List.mem_append_right _ (Environment.mem_bindings hgiven)) hsensitive hblank

/-! ## The snapshot -/

/-- A variable with a sensitive name is hidden. Let it be given with the request, or by the environment without
another one behind it that has another value and differs from it in the case of its name alone. When a snapshot
is taken, the value of the variable stands in none of the strings of its documents that are no labels, provided
that the value is not blank and shares no character with the marker. The row that the store keeps of the
snapshot hides the value: its texts are those of the documents, and all that is read from them is labels and
strings without the value. All other rows were there before. -/
theorem capture_hides_variable {o : Occasion} {w : Workspace} {settings : Settings} {store after : Store}
    {request : CaptureRequest} {recording : Recording} {name value : String}
    (h : captureRun o w settings store request = .ok (recording, after))
    (hgiven : request.Gives w name value ∨ Environment.Gives Environment.usualStem o.environment name value)
    (hmarks : settings.Marks name) (hblank : Text.isBlank value = false)
    (hdistinct : ∀ c ∈ value.toList, c ∉ settings.marker.toList) :
    recording.snapshot.fields.Lacks value ∧ (∀ spec, recording.snapshot.podSpec = some spec → spec.Lacks value) ∧
      ∀ row, after.HasRow row → store.HasRow row ∨ row.Hides recording.snapshot value := by
  obtain ⟨c, hread, h⟩ := bind_eq_ok h
  -- Whether the oldest run keys stay makes no difference to names and marker.
  generalize hchosen : (if request.keepsAll then unlimited settings else settings) = chosen at h
  have hsame : chosen.sensitiveNames = settings.sensitiveNames ∧ chosen.marker = settings.marker := by
    rw [← hchosen]
    split <;> exact ⟨rfl, rfl⟩
  obtain ⟨recorder, hrecorder, h⟩ := bind_eq_ok h
  obtain ⟨m, hm, hrecorder⟩ := bind_eq_ok hrecorder
  obtain ⟨hmarker, hfilled, hsecrets⟩ := masker_eq_ok hm
  have hpolicy : recorder.policy = m.policy := by rw [← Except.ok.inj hrecorder]
  have hmem : value ∈ m.secrets := by
    refine hsecrets name value (hgiven.imp (mem_bindings_of_gives hread) id) ?_ hblank
    unfold Settings.Marks
    rw [hsame.1]
    exact hmarks
  rw [← hsame.2, ← hmarker] at hdistinct
  have hpodSpec : ∀ spec, Except.ok c.podSpec = (.ok (some spec) : Except LedgerError _) → spec.Writable :=
    fun spec hspec => writable_podSpec hread spec (Except.ok.inj hspec)
  exact Recorder.hides_of_record hfilled hmem hblank hdistinct hpolicy (signed_owner hread) hpodSpec (mapError_eq_ok h)

/-! ## What is hidden and what is not -/

namespace CaptureAux

/-- The answer brings a store with a row that passes a check. -/
def captured (check : Store.Row → Bool) : Except CommandError (Recording × Store) → Bool
  | .ok (_, after) => after.table.any fun t => t.rows.any check
  | .error _ => false

/-- Whether a text stands in one of the strings of a stored document. -/
def shows (part text : String) : Bool :=
  match Json.read text with
  | .ok v => v.strings.any fun s => Text.contains s part
  | .error _ => false

/-- An answer that brings a row is no failure. -/
theorem exists_of_captured {check : Store.Row → Bool} {answer : Except CommandError (Recording × Store)}
    (h : captured check answer = true) :
    ∃ recording after row, answer = .ok (recording, after) ∧ after.HasRow row ∧ check row = true := by
  unfold captured at h
  split at h
  · next recording after =>
    obtain ⟨t, ht, hrows⟩ := (Option.any_eq_true _ _).1 h
    obtain ⟨row, hrow, hcheck⟩ := List.any_eq_true.1 hrows
    exact ⟨recording, after, row, rfl, ⟨t, ht, hrow⟩, hcheck⟩
  · cases h

/-- Whether the answer is a document that gives one variable with a text. -/
def givesOne (name value : String) : Except CommandError Json → Bool
  | .ok (.object [(k, .string s)]) => k = name && s = value
  | _ => false

/-- A request gives the one variable that its document gives. -/
theorem gives_of_givesOne {r : CaptureRequest} {w : Workspace} {name value : String}
    (h : givesOne name value (readDocument w r.bindings) = true) : r.Gives w name value := by
  unfold givesOne at h
  split at h
  · next k s hread =>
    rw [Bool.and_eq_true, decide_eq_true_eq, decide_eq_true_eq] at h
    obtain ⟨rfl, rfl⟩ := h
    exact ⟨_, _, hread, List.mem_singleton.2 rfl, .string s⟩
  · cases h

/-- A request for a snapshot of an owner with one template field. -/
def requestWith (field bindings podSpec : String) : CaptureRequest where
  run := ⟨"w", "t", .runId "r", none⟩
  owner := "\x7b\"kind\": \"K\", \"template_fields\": [\"f\"], \"attributes\": \x7b\"f\": " ++ field ++ "\x7d\x7d"
  context := emptyObject
  bindings := bindings
  podSpec := some podSpec
  keepsAll := true

/-- A document with one variable, whose name is sensitive. -/
def tokenBindings : String := "\x7b\"api_token\": \"hunter2\"\x7d"

/-- A field that refers to the variable. -/
def tokenField : String := "\"-u me:\x7b\x7bvar.value.api_token\x7d\x7d\""

/-- A field that is an object whose kind is the value of the variable. -/
def tokenKind : String := "\x7b\"$object\": \x7b\"kind\": \"hunter2\"\x7d\x7d"

/-- A pod with an object that declares the value of the variable as a template field. -/
def tokenPodSpec : String :=
  "\x7b\"p\": \x7b\"__kind\": \"P\", \"__template_fields\": [\"hunter2\"], \"__attributes\": \x7b\x7d\x7d\x7d"

/-- Two variables whose names differ in case alone, the one in capitals first. -/
def contradicting : Environment := [("RFS_VAR_API_TOKEN", "hunter2"), ("RFS_VAR_api_token", "other")]

/-- The two variables in the other order. -/
def overriding : Environment := [("RFS_VAR_api_token", "other"), ("RFS_VAR_API_TOKEN", "hunter2")]

/-- What is stored of the field when the variable is hidden. -/
def hiddenToken : String := "\x7b\"f\":\"-u me:***\"\x7d"

/-- The variable is given with its text. -/
theorem gives_token (field podSpec : String) :
    (requestWith field tokenBindings podSpec).Gives {} "api_token" "hunter2" := by
  have hread : givesOne "api_token" "hunter2" (readDocument {} tokenBindings) = true := by decide +kernel
  exact gives_of_givesOne hread

/-- The variable in capitals is given by the environment in which it comes last. -/
theorem gives_overriding : Environment.Gives Environment.usualStem overriding "API_TOKEN" "hunter2" :=
  ⟨[("RFS_VAR_api_token", "other")], [], by decide +kernel, by decide, nofun⟩

/-- The name of the variable is sensitive in either case. -/
theorem marks_token : Settings.usual.Marks "api_token" ∧ Settings.usual.Marks "API_TOKEN" :=
  ⟨⟨"token", by decide, by decide +kernel⟩, ⟨"token", by decide, by decide +kernel⟩⟩

/-- The text of the variable is not blank and shares no character with the marker. -/
theorem distinct_token : Text.isBlank "hunter2" = false ∧ ∀ c ∈ "hunter2".toList, c ∉ Settings.usual.marker.toList := by
  have hall : ("hunter2".toList.all fun c => !Settings.usual.marker.toList.contains c) = true := by decide +kernel
  refine ⟨by decide +kernel, fun c hc hmem => ?_⟩
  have hnot := List.all_eq_true.1 hall c hc
  rw [List.contains_iff_mem.2 hmem] at hnot
  cases hnot

end CaptureAux

open CaptureAux

/-- A variable that a field refers to is hidden in the text that is stored, be it given with the request or by
an environment in which another value comes first. -/
theorem capture_hides_variable_in_field :
    (∃ recording after row, captureRun ⟨[], ⟨1⟩, ⟨0, 0⟩⟩ {} .usual (Store.migrate .blank)
        (requestWith tokenField tokenBindings emptyObject) = .ok (recording, after) ∧
        after.HasRow row ∧ row.fields = hiddenToken ∧ row.Hides recording.snapshot "hunter2") ∧
      ∃ recording after row, captureRun ⟨overriding, ⟨1⟩, ⟨0, 0⟩⟩ {} .usual (Store.migrate .blank)
        (requestWith tokenField emptyObject emptyObject) = .ok (recording, after) ∧
        after.HasRow row ∧ row.fields = hiddenToken ∧ row.Hides recording.snapshot "hunter2" := by
  have hhides : ∀ {env : Environment} {bindings name : String},
      (requestWith tokenField bindings emptyObject).Gives {} name "hunter2" ∨
        Environment.Gives Environment.usualStem env name "hunter2" →
      Settings.usual.Marks name →
      captured (fun row => row.fields = hiddenToken) (captureRun ⟨env, ⟨1⟩, ⟨0, 0⟩⟩ {} .usual (Store.migrate .blank)
        (requestWith tokenField bindings emptyObject)) = true →
      ∃ recording after row, captureRun ⟨env, ⟨1⟩, ⟨0, 0⟩⟩ {} .usual (Store.migrate .blank)
        (requestWith tokenField bindings emptyObject) = .ok (recording, after) ∧
        after.HasRow row ∧ row.fields = hiddenToken ∧ row.Hides recording.snapshot "hunter2" := by
    intro env bindings name hgiven hmarks hcaptured
    obtain ⟨recording, after, row, h, hrow, htext⟩ := exists_of_captured hcaptured
    obtain ⟨-, -, hrows⟩ := capture_hides_variable h hgiven hmarks distinct_token.1 distinct_token.2
    refine ⟨recording, after, row, h, hrow, of_decide_eq_true htext, (hrows row hrow).resolve_left ?_⟩
    rintro ⟨t, ht, hmem⟩
    obtain rfl := Option.some.inj ht
    exact absurd hmem List.not_mem_nil
  exact ⟨hhides (.inl (gives_token _ _)) marks_token.1 (by decide +kernel),
    hhides (.inr gives_overriding) marks_token.2 (by decide +kernel)⟩

/-- Kinds and the names of template fields are kept even where they are the value of a sensitive variable. Of
two variables of the environment whose names differ in case alone only one is hidden, and an expression can
refer to the other. -/
theorem capture_shows_labels_and_contradicted :
    ((∃ recording after row, captureRun ⟨[], ⟨1⟩, ⟨0, 0⟩⟩ {} .usual (Store.migrate .blank)
          (requestWith tokenKind tokenBindings tokenPodSpec) = .ok (recording, after) ∧ after.HasRow row ∧
          (shows "hunter2" row.fields && row.podSpec.any (shows "hunter2")) = true) ∧
        (requestWith tokenKind tokenBindings tokenPodSpec).Gives {} "api_token" "hunter2") ∧
      ((∃ recording after row, captureRun ⟨contradicting, ⟨1⟩, ⟨0, 0⟩⟩ {} .usual (Store.migrate .blank)
          (requestWith tokenField emptyObject emptyObject) = .ok (recording, after) ∧ after.HasRow row ∧
          shows "hunter2" row.fields = true) ∧
        ("RFS_VAR_API_TOKEN", "hunter2") ∈ contradicting ∧
        Environment.nameBehind? Environment.usualStem "RFS_VAR_API_TOKEN" = some "API_TOKEN") ∧
      Settings.usual.Marks "api_token" ∧ Settings.usual.Marks "API_TOKEN" ∧ Text.isBlank "hunter2" = false ∧
      ∀ c ∈ "hunter2".toList, c ∉ Settings.usual.marker.toList := by
  have hlabels : captured (fun row => shows "hunter2" row.fields && row.podSpec.any (shows "hunter2"))
      (captureRun ⟨[], ⟨1⟩, ⟨0, 0⟩⟩ {} .usual (Store.migrate .blank)
        (requestWith tokenKind tokenBindings tokenPodSpec)) = true := by decide +kernel
  have hcontradicted : captured (fun row => shows "hunter2" row.fields)
      (captureRun ⟨contradicting, ⟨1⟩, ⟨0, 0⟩⟩ {} .usual (Store.migrate .blank)
        (requestWith tokenField emptyObject emptyObject)) = true := by decide +kernel
  refine ⟨⟨exists_of_captured hlabels, gives_token _ _⟩, ⟨exists_of_captured hcontradicted, List.mem_cons_self, ?_⟩,
    marks_token.1, marks_token.2, distinct_token.1, distinct_token.2⟩
  decide +kernel

end CommandLine

end SnapshotLedger
