import Orchestration.Proofs.Codecs
import Orchestration.Proofs.Tallies

/-! The two ways to one form. A result is normalized as it is, and the JSON object that is written
for it as any loose record; both come to the same. What has been normalized stays as it is when it
is written and normalized again, for confidences are confined already. The one thing that no JSON
value can say is a confidence that is no number; and a reader of texts may take a confidence for
the double next to it. -/
namespace Orchestration

namespace Binary64

theorem lt_bound_of_clampUnit {x : Binary64} (number : x.clampUnit ≠ .nan) :
    x.clampUnit.lt zero = false ∧ one.lt x.clampUnit = false := by
  obtain ⟨low, high⟩ := x.clampUnit_bounded.resolve_left number
  exact ⟨lt_eq_false_of_le low, lt_eq_false_of_le high⟩

@[simp] theorem clampUnit_clampUnit (x : Binary64) : x.clampUnit.clampUnit = x.clampUnit := by
  by_cases number : x.clampUnit = .nan
  · rw [number]
    rfl
  · obtain ⟨low, high⟩ := lt_bound_of_clampUnit number
    rw [clampUnit, clamp, low, high]
    simp

@[simp] theorem clampUnit_eq_nan {x : Binary64} : x.clampUnit = .nan ↔ x = .nan := by
  constructor
  · intro clamped
    unfold clampUnit clamp at clamped
    split at clamped
    · cases clamped
    · split at clamped
      · cases clamped
      · exact clamped
  · rintro rfl
    rfl

theorem isFinite_clampUnit {x : Binary64} : x.clampUnit.isFinite = true ↔ x ≠ .nan := by
  rw [← not_iff_not, not_not, ← clampUnit_eq_nan]
  constructor
  · intro endless
    by_contra number
    obtain ⟨low, high⟩ := x.clampUnit_bounded.resolve_left number
    cases clamped : x.clampUnit with
    | finite s m e canonical => simp [clamped, isFinite] at endless
    | nan => exact number clamped
    | infinite s =>
      rw [clamped] at low high
      cases s
      · exact absurd high (by decide +kernel)
      · exact absurd low (by decide +kernel)
  · intro clamped
    rw [clamped]
    decide

end Binary64

/-! ### Issues -/

namespace Issue

theorem ofLoose?_toJson (i : Issue) : ofLoose? i.toJson = some i := by
  obtain ⟨kind, message, severity⟩ := i
  cases severity with
  | none =>
    simp [ofLoose?, toJson, Json.record, Table.get?_ofList, Table.keys, Table.get?_cons,
      Json.string?]
  | some severity =>
    simp [ofLoose?, toJson, Json.record, Table.get?_ofList, Table.keys, Table.get?_cons,
      Json.string?]

theorem filterMap_ofLoose? (issues : List Issue) :
    (issues.map toJson).filterMap ofLoose? = issues := by
  rw [List.filterMap_map]
  simp [ofLoose?_toJson]

end Issue

namespace TaskStatus

/-- The word of a status is understood by the reader of other words, too. -/
theorem ofWord?_text (s : TaskStatus) : ofWord? s.text = some s := by
  cases s <;> decide

end TaskStatus

namespace Finding

/-- A record says this of an outcome, however the rest of it looks. -/
structure ToldBy (f : Finding) (record : Table Json) : Prop where
  task : Table.get? record "task_id" = some (.str f.task)
  status : Table.get? record "status" = some f.status.toJson
  result : Table.get? record "result" = some f.result
  confidence : Table.get? record "confidence" = some (.ofOption .ofFloat f.confidence)
  issues : Table.get? record "issues" = some (Issue.listToJson f.issues)

def confined (f : Finding) : Finding :=
  { f with confidence := (f.confidence.filter (·.isFinite)).map .clampUnit }

/-- The outcome without a confidence that is no number, of which JSON cannot tell. -/
def told (f : Finding) : Finding := { f with confidence := f.confidence.filter (· ≠ .nan) }

theorem told_toJson (f : Finding) : f.told.toJson = f.toJson := by
  obtain ⟨task, status, result, confidence, issues⟩ := f
  cases confidence with
  | none => rfl
  | some c =>
    by_cases number : c = .nan
    · subst number
      rfl
    · simp [told, Option.filter, number]

theorem told_eq_self {f : Finding} : f.told = f ↔ f.confidence ≠ some .nan := by
  obtain ⟨task, status, result, confidence, issues⟩ := f
  cases confidence with
  | none => simp [told]
  | some c => simp [told, Option.filter_eq_some_iff]

theorem float?_ofOption (confidence : Option Binary64) :
    (Json.ofOption .ofFloat confidence).float? = confidence.filter (·.isFinite) := by
  cases confidence with
  | none => rfl
  | some c =>
    cases finite : c.isFinite <;>
      simp [Json.ofOption, Json.ofFloat, Json.float, Json.float?, Json.number?, finite,
        Number.toBinary64, Option.filter]

theorem ToldBy.ofRecord {f : Finding} {record : Table Json} (told : f.ToldBy record) :
    ofRecord record = f.confined := by
  have issues := Issue.filterMap_ofLoose? f.issues
  unfold Finding.ofRecord confined
  simp only [told.task, told.status, told.result, told.confidence, told.issues, Option.bind_some,
    float?_ofOption]
  simp [Json.string?, TaskStatus.toJson, TaskStatus.ofWord?_text, Issue.listToJson, Json.array?,
    issues]

/-- A record says what its members say in whatever order they were given. -/
theorem ToldBy.ofList {f : Finding} {members : List (String × Json)} (told : f.ToldBy members)
    (distinct : (Table.keys members).Nodup) : f.ToldBy (Table.ofList members) := by
  obtain ⟨task, status, result, confidence, issues⟩ := told
  constructor
  all_goals rwa [Table.get?_ofList distinct]

theorem toldBy_toJson (f : Finding) : ∃ record, f.toJson = .obj record ∧ f.ToldBy record := by
  refine ⟨_, rfl, ToldBy.ofList ⟨rfl, rfl, rfl, rfl, rfl⟩ ?_⟩
  simp [Table.keys]

end Finding

theorem TaskResult.toldBy_toJson (r : TaskResult) : ∃ record, r.toJson = .obj record ∧
    Finding.ToldBy ⟨r.task, r.status, r.result, r.confidence, r.issues⟩ record := by
  refine ⟨_, rfl, Finding.ToldBy.ofList ⟨rfl, rfl, rfl, rfl, rfl⟩ ?_⟩
  simp [Table.keys]

/-! ### Observations -/

namespace Observation

def ofJson? (j : Json) : Option Observation := j.object?.map .raw

/-- What is put into JSON and normalized again has its confidence confined, and nothing else. -/
theorem normalize_toJson (f : Finding) :
    (ofJson? f.toJson).map (·.normalize) = some f.confined := by
  obtain ⟨record, object, told⟩ := f.toldBy_toJson
  rw [object, ← told.ofRecord]
  rfl

theorem normalize_result (r : TaskResult) (finite : ∀ c ∈ r.confidence, c.isFinite = true) :
    (ofJson? r.toJson).map (·.normalize) = some (typed r).normalize := by
  obtain ⟨record, object, told⟩ := r.toldBy_toJson
  have kept : r.confidence.filter (·.isFinite) = r.confidence := by
    cases confidence : r.confidence with
    | none => rfl
    | some c => simp [Option.filter, finite c confidence]
  rw [object]
  change some (Finding.ofRecord record) = some (Finding.ofResult r)
  rw [told.ofRecord, Finding.confined, kept]
  rfl

theorem confined_normalize (o : Observation) : o.normalize.confined = o.normalize.told := by
  rw [Finding.confined, Finding.told, o.normalize_confidence]
  cases o.declared? with
  | none => rfl
  | some c =>
    by_cases number : c = .nan
    · subst number
      rfl
    · simp [Option.filter, number, Binary64.isFinite_clampUnit]

theorem confidence_ne_nan {o : Observation} :
    o.normalize.confidence ≠ some .nan ↔ o.declared? ≠ some .nan := by
  rw [o.normalize_confidence]
  cases o.declared? <;> simp

/-- A record of JSON values declares no confidence but a number. -/
theorem declared_of_clean {record : Table Json} (clean : (Json.obj record).Clean) :
    (raw record).declared? ≠ some .nan := by
  intro declared
  obtain ⟨j, found, read⟩ := Option.bind_eq_some_iff.mp declared
  have fits : j.Fits j.depth := ⟨Nat.le_refl _, fun n inside =>
    clean n (Json.mem_memberNumbers.mpr ⟨_, Table.mem_of_get? found, inside⟩)⟩
  have finite := (Codec.float.sound j _ _ fits (Nat.zero_le _) read).1
  cases finite

theorem normalize_failed (task : String) (issue : Issue) :
    (failed task issue).normalize = ⟨task, .failed, .null, none, [issue]⟩ := by
  have issues := Issue.filterMap_ofLoose? [issue]
  have status := TaskStatus.ofWord?_text .failed
  simp only [List.map_cons, List.map_nil] at issues
  simp [failed, normalize, Finding.ofRecord, Table.get?_ofList, Table.keys, Table.get?_cons,
    Json.string?, Json.array?, Issue.listToJson, issues, status]

/-- A result comes to the same form as the object that is written for it. The form of any
observation, written and normalized again, is the same JSON and the same form, unless a result
had a confidence that is no number; and so it is by way of its text, if readers go so deep and
give the numbers back. And a failure told of a task has that one issue. -/
theorem normal_form_settled :
    (∀ r : TaskResult, (∀ c ∈ r.confidence, c.isFinite = true) →
      (ofJson? r.toJson).map (·.normalize) = some (typed r).normalize) ∧
    (∀ o : Observation, ∃ again, ofJson? o.normalize.toJson = some again ∧
      again.normalize.toJson = o.normalize.toJson ∧
      (again.normalize = o.normalize ↔ o.declared? ≠ some .nan) ∧
      ((∀ n ∈ o.normalize.toJson.numbers, n.Legible) →
        o.normalize.toJson.depth ≤ Json.depthLimit →
        (Json.readChars? o.normalize.toJson.chars).bind ofJson? = some again)) ∧
    (∀ record, (Json.obj record).Clean → (raw record).declared? ≠ some .nan) ∧
    ∀ task issue, (failed task issue).normalize = ⟨task, .failed, .null, none, [issue]⟩ := by
  refine ⟨normalize_result, fun o => ?_, fun record => declared_of_clean, normalize_failed⟩
  obtain ⟨again, read, form⟩ := Option.map_eq_some_iff.mp (normalize_toJson o.normalize)
  rw [confined_normalize] at form
  refine ⟨again, read, ?_, ?_, fun legible shallow => ?_⟩
  · rw [form, Finding.told_toJson]
  · rw [form, Finding.told_eq_self, confidence_ne_nan]
  · rw [Json.readChars?_chars legible, if_pos shallow, Option.bind_some, read]

/-- A confidence beyond one is confined on either way, and so is a record that says little. -/
theorem boastful_settled :
    let boast : TaskResult := { TaskResult.bare "s" "t" "w" .partial ⟨0, 0⟩ with
      confidence := some (.ofDecimal false 15 (-1)), issues := [⟨"lint", "", some "low"⟩] }
    let odd : Table Json := [("confidence", .str "high"), ("status", .str " Running "),
      ("issues", .arr [.str "late", .null, .obj [("severity", .nat 1)]])]
    (∀ c ∈ boast.confidence, c.isFinite = true) ∧ (Json.obj odd).Clean ∧
      (ofJson? boast.toJson).map (·.normalize) =
        some ⟨"t", .partial, .null, some .one, [⟨"lint", "", some "low"⟩]⟩ ∧
      ∃ again, (Json.readChars? (raw odd).normalize.toJson.chars).bind ofJson? = some again ∧
        again.normalize = ⟨"", .partial, .null, none, [.of "generic" "late", .of "generic" ""]⟩ := by
  intro boast odd
  obtain ⟨agree, settled, declared, _⟩ := normal_form_settled
  have finite : ∀ c ∈ boast.confidence, c.isFinite = true := by decide +kernel
  have clean : (Json.obj odd).Clean := by
    simp [odd, Json.Clean, Json.numbers, Json.memberNumbers, Json.itemNumbers, Json.nat,
      Number.Sound]
    decide
  have confidence : (Binary64.ofDecimal false 15 (-1)).clampUnit = .one := by decide +kernel
  refine ⟨finite, clean, ?_, ?_⟩
  · rw [agree boast finite]
    simp [boast, normalize, Finding.ofResult, TaskResult.bare, confidence]
  · obtain ⟨again, _, _, same, text⟩ := settled (raw odd)
    have numbers : (raw odd).normalize.toJson.numbers = [] := by decide
    refine ⟨again, text (by simp [numbers]) (by decide), ?_⟩
    exact (same.mpr (declared odd clean)).trans rfl

def sure (confidence : Binary64) : Observation :=
  typed { TaskResult.bare "s" "t" "w" .success ⟨0, 0⟩ with confidence := some confidence }

/-- A confidence that is no number is gone when the form has been written and normalized again;
and of one that is, a reader of texts may make its neighbour. -/
theorem confidence_unsettled :
    (∃ again, ofJson? (sure .nan).normalize.toJson = some again ∧
      again.normalize ≠ (sure .nan).normalize) ∧
    let almost := sure (.ofDecimal false 9027947655865985 (-16))
    ∃ again, (Json.readChars? almost.normalize.toJson.chars).bind ofJson? = some again ∧
      again.normalize ≠ almost.normalize := by
  constructor
  · obtain ⟨again, read, form⟩ := Option.map_eq_some_iff.mp (normalize_toJson (sure .nan).normalize)
    refine ⟨again, read, fun same => ?_⟩
    rw [confined_normalize] at form
    exact Finding.told_eq_self.mp (form.symm.trans same) rfl
  · intro almost
    have neighbour : ((Json.readChars? almost.normalize.toJson.chars).bind ofJson?).map
        (·.normalize.confidence) = some (some (.ofDecimal false 9027947655865984 (-16))) := by
      decide +kernel
    obtain ⟨again, read, confidence⟩ := Option.map_eq_some_iff.mp neighbour
    refine ⟨again, read, fun same => ?_⟩
    rw [same] at confidence
    exact absurd confidence (by decide +kernel)

end Observation

end Orchestration
