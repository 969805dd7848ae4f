import SchemaValidation.CommandLine.Program
import SchemaValidation.Proofs.Selection

/-!
# The suite

All conformance cases pass, so a run of those that a filter selects reports nothing but passes.  How
the command ends therefore depends on the filter alone: it finds nothing to do if no description
matches, and succeeds otherwise.  The report and the list of cases are about the same descriptions.
-/

namespace SchemaValidation

theorem Traced.result_mapM {α β : Type} (f : α → Traced β) (as : List α) :
    (as.mapM f).result = as.map fun a => (f a).result := by
  induction as with
  | nil => rfl
  | cons a as ih => rw [List.mapM_cons, Traced.result_bind, Traced.result_bind, ih]; rfl

namespace Conformance

/-! ## Reports of passes -/

namespace Report

/-- The report of cases that all passed. -/
def ofPassed (descriptions : List String) : Report := ⟨descriptions.map fun d => ⟨d, true⟩⟩

variable (descriptions : List String)

@[simp] theorem total_ofPassed : (ofPassed descriptions).total = descriptions.length :=
  List.length_map _

@[simp] theorem passed_ofPassed : (ofPassed descriptions).passed = descriptions.length := by
  simp [passed, ofPassed, Function.comp_def]

@[simp] theorem failed_ofPassed : (ofPassed descriptions).failed = 0 := by simp [failed]

@[simp] theorem allPassed_ofPassed : (ofPassed descriptions).allPassed = true := by
  simp [allPassed, ofPassed]

/-- The document counts no failures, and lists the descriptions. -/
theorem document_ofPassed : (ofPassed descriptions).document = .object [
    ("schema_id", .text schemaId),
    ("total", .count descriptions.length),
    ("passed", .count descriptions.length),
    ("failed", .count 0),
    ("cases", .array (descriptions.map fun d =>
      .object [("description", .text d), ("passed", .flag true)])),
    ("overall", .text "pass")] := by
  rw [document, total_ofPassed, passed_ofPassed, failed_ofPassed, allPassed_ofPassed, ofPassed,
    List.map_map]
  rfl

end Report

/-! ## Runs -/

theorem outcomes_runAll (cases : List Case) :
    (runAll cases).result.outcomes = cases.map fun c => ⟨c.description, c.run.result⟩ := by
  rw [runAll, Traced.result_map, Traced.result_mapM]
  rfl

theorem result_runAll_of_pass {cases : List Case} (pass : ∀ c ∈ cases, c.run.result = true) :
    (runAll cases).result = .ofPassed (cases.map Case.description) := by
  have outcomes : (runAll cases).result.outcomes =
      (Report.ofPassed (cases.map Case.description)).outcomes := by
    rw [outcomes_runAll, Report.ofPassed, List.map_map]
    refine List.map_congr_left fun c mem => ?_
    rw [pass c mem]
    rfl
  exact congrArg Report.mk outcomes

/-- A case passes if every schema judges its value as expected. -/
theorem Case.result_run_iff {c : Case} : c.run.result = true ↔
    ∀ e ∈ c.expectations, (e.schema.validate e.value).result = e.accepted := by
  rw [run, Traced.result_allM, List.all_eq_true]
  simp only [Expectation.met, Traced.result_map, beq_iff_eq]

theorem run_of_mem_cases : ∀ c ∈ Conformance.cases, c.run.result = true := by decide +kernel

/-- No conformance case passes for want of expectations. -/
theorem expectations_ne_nil_of_mem_cases : ∀ c ∈ Conformance.cases, c.expectations ≠ [] := by
  decide

/-! ## Lists of cases -/

namespace CaseList

/-- What is written of cases with these descriptions. -/
def listing (format : Format) (descriptions : List String) : String :=
  match format with
  | .json => (Document.object [
      ("schema_id", .text schemaId), ("cases", .array (descriptions.map .text))]).line
  | .table => unlines (Text.Table.mk ["#", "CASE"]
      ((descriptions.zipIdx 1).map fun (d, number) => [toString number, d])).draw
  | .pretty | .raw => unlines descriptions

theorem render_eq_listing (format : Format) (cases : List Case) :
    render format cases = listing format (cases.map Case.description) := by
  cases format with
  | json => simp [render, listing, document, Function.comp_def]
  | table => simp [render, listing, table, List.zipIdx_map, Function.comp_def]
  | pretty | raw => rfl

end CaseList

end Conformance

namespace CommandLine

open Conformance

variable {filter : Option String} {cases : List Case} (color : Bool) (format : Format)

/-! ## How the command ends -/

/-- The command logs nothing, and goes the same way whatever the cases expect: none is evaluated. -/
def EvaluatesNone (cases : List Case) (filter : Option String) : Prop :=
  (conformance color format cases filter).log = [] ∧
  ∀ others : List Case, others.map Case.description = cases.map Case.description →
    conformance color format others filter = conformance color format cases filter

theorem conformance_of_select_eq_nil (h : select filter cases = []) :
    conformance color format cases filter = {
      code := nothingToDo
      output := ""
      complaint := some ("no conformance case matches filter: " ++ filter.getD "") } := by
  rw [conformance, h]

theorem evaluatesNone_of_select_eq_nil (h : select filter cases = []) :
    EvaluatesNone color format cases filter := by
  refine ⟨by rw [conformance_of_select_eq_nil color format h], fun others same => ?_⟩
  rw [conformance_of_select_eq_nil color format h,
    conformance_of_select_eq_nil color format ((select_eq_nil_congr same).mpr h)]

/-- Where something is selected and all of it passes, the command succeeds and reports so. -/
theorem conformance_of_pass (h : select filter cases ≠ [])
    (pass : ∀ c ∈ select filter cases, c.run.result = true) :
    (conformance color format cases filter).code = success ∧
    (conformance color format cases filter).output =
      (Report.ofPassed ((select filter cases).map Case.description)).render color format := by
  have report := result_runAll_of_pass pass
  obtain ⟨first, rest, eq⟩ := List.exists_cons_of_ne_nil h
  rw [eq] at report
  rw [conformance, eq]
  dsimp only
  rw [report, Report.allPassed_ofPassed]
  exact ⟨rfl, rfl⟩

theorem selected_pass : ∀ c ∈ select filter Conformance.cases, c.run.result = true :=
  fun c mem => run_of_mem_cases c (mem_select_iff.mp mem).1

/-- The command finds nothing to do, writes nothing and evaluates no case exactly if the filter
matches no description.  Otherwise it succeeds, as all selected cases pass: each expects something,
and every schema in it judges its value as expected.  The command then reports a pass for each of
the descriptions that are listed with the same filter.  Listing always succeeds. -/
theorem conformance_ends (surroundings : Surroundings) (filter : Option String)
    (format : Option Format) (logFormat : Log.Format) (logLevel : Log.Level) :
    let shown := format.getD surroundings.defaultFormat
    let descriptions := (Conformance.cases.map Case.description).filter fun d => Matches filter d
    let ran := Invocation.run surroundings ⟨.conformance filter, format, logFormat, logLevel⟩
    let listed := Invocation.run surroundings ⟨.list filter, format, logFormat, logLevel⟩
    (ran.code = 64 ∧ ran.output = "" ∧
        EvaluatesNone surroundings.color shown Conformance.cases filter ↔
      ∀ c ∈ Conformance.cases, ¬Matches filter c.description) ∧
    ((∃ c ∈ Conformance.cases, Matches filter c.description) →
      ran.code = 0 ∧
      (∀ c ∈ select filter Conformance.cases, c.run.result = true ∧ c.expectations ≠ [] ∧
        ∀ e ∈ c.expectations, (e.schema.validate e.value).result = e.accepted) ∧
      ran.output = (Report.ofPassed descriptions).render surroundings.color shown ∧
      (shown = .json → ran.output = (Document.object [
        ("schema_id", .text Report.schemaId),
        ("total", .count descriptions.length),
        ("passed", .count descriptions.length),
        ("failed", .count 0),
        ("cases", .array (descriptions.map fun d =>
          .object [("description", .text d), ("passed", .flag true)])),
        ("overall", .text "pass")]).line)) ∧
    listed.code = 0 ∧ listed.output = CaseList.listing shown descriptions := by
  intro shown descriptions ran listed
  have described : (select filter Conformance.cases).map Case.description = descriptions :=
    map_description_select filter Conformance.cases
  refine ⟨⟨?_, ?_⟩, ?_, rfl, ?_⟩
  · rintro ⟨code, -, -⟩ c mem held
    have selected : select filter Conformance.cases ≠ [] := fun none =>
      select_eq_nil_iff.mp none c mem held
    have succeeded : ran.code = 0 :=
      (conformance_of_pass surroundings.color shown selected selected_pass).1
    cases code.symm.trans succeeded
  · intro unmatched
    have none := select_eq_nil_iff.mpr unmatched
    have ended := conformance_of_select_eq_nil surroundings.color shown none
    exact ⟨congrArg Completion.code ended, congrArg Completion.output ended,
      evaluatesNone_of_select_eq_nil surroundings.color shown none⟩
  · rintro ⟨c, mem, held⟩
    have selected : select filter Conformance.cases ≠ [] := fun none =>
      select_eq_nil_iff.mp none c mem held
    obtain ⟨code, output⟩ :=
      conformance_of_pass surroundings.color shown selected selected_pass
    rw [described] at output
    refine ⟨code, fun c mem => ?_, output, fun json => output.trans ?_⟩
    · have passed := selected_pass c mem
      exact ⟨passed, expectations_ne_nil_of_mem_cases c (mem_select_iff.mp mem).1,
        Case.result_run_iff.mp passed⟩
    · rw [json, Report.render, Report.document_ofPassed]
  · rw [← described]
    exact CaseList.render_eq_listing shown _

/-- Two descriptions hold "records", in capitals or not, and none holds "zebra". -/
theorem conformance_ends_records :
    (∃ c ∈ Conformance.cases, Matches (some "RECORDS") c.description) ∧
    (Invocation.run ⟨⟨"", "", "", "", ""⟩, false, .raw⟩
      ⟨.conformance (some "RECORDS"), some .json, .text, .info⟩).code = 0 ∧
    (Invocation.run ⟨⟨"", "", "", "", ""⟩, false, .raw⟩
      ⟨.conformance (some "RECORDS"), some .json, .text, .info⟩).output =
        (Report.ofPassed ["person records", "location records"]).render false .json ∧
    (∀ c ∈ Conformance.cases, ¬Matches (some "zebra") c.description) ∧
    (Invocation.run ⟨⟨"", "", "", "", ""⟩, false, .raw⟩
      ⟨.conformance (some "zebra"), none, .text, .info⟩).code = 64 := by
  have held : ∃ c ∈ Conformance.cases, Matches (some "RECORDS") c.description :=
    ⟨personRecords, by simp [Conformance.cases], by decide +kernel⟩
  have unheld : ∀ c ∈ Conformance.cases, ¬Matches (some "zebra") c.description := by
    decide +kernel
  have records : (Conformance.cases.map Case.description).filter
      (fun d => Matches (some "RECORDS") d) = ["person records", "location records"] := by
    decide +kernel
  obtain ⟨-, ended, -⟩ := conformance_ends ⟨⟨"", "", "", "", ""⟩, false, .raw⟩
    (some "RECORDS") (some .json) .text .info
  obtain ⟨⟨-, nothing⟩, -⟩ := conformance_ends ⟨⟨"", "", "", "", ""⟩, false, .raw⟩
    (some "zebra") none .text .info
  obtain ⟨code, -, output, -⟩ := ended held
  exact ⟨held, code, output.trans (records ▸ rfl), unheld, (nothing unheld).1⟩

end CommandLine

end SchemaValidation
