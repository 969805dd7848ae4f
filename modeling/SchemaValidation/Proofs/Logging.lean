import SchemaValidation.Proofs.Escaping
import SchemaValidation.Proofs.Restriction
import SchemaValidation.Proofs.Verdicts
import Mathlib.Data.List.Flatten

/-!
# Logging

How the log is kept has no influence on the exit code and on what is written to the output stream.
It shows on the error stream alone, where every record is written on lines of its own
(`Log.lines_render_append`).  A log that tells less therefore has some of the lines of one that tells
more, in the same order.

A log that tells everything has one line for every event of the evaluator, because neither these
events nor a filter that selects something hold a line break.
-/

namespace SchemaValidation

namespace Text

/-! ## Lines -/

/-- The lines of a text, without their line breaks. -/
def cutLines : List Char → List (List Char)
  | [] => []
  | c :: rest =>
    if c = '\n' then [] :: cutLines rest
    else
      match cutLines rest with
      | [] => [[c]]
      | line :: lines => (c :: line) :: lines

def lines (text : String) : List String := (cutLines text.toList).map String.ofList

/-- The text ends with a line break. -/
def Ended (text : String) : Prop := ∃ before, text.toList = before ++ ['\n']

/-- The text is one line. -/
def OneLine (text : String) : Prop := ∃ line, text.toList = line ++ ['\n'] ∧ '\n' ∉ line

theorem OneLine.ended {text : String} (h : OneLine text) : Ended text := by
  obtain ⟨line, eq, -⟩ := h
  exact ⟨line, eq⟩

/-- A line break separates what comes before it from what comes after it. -/
theorem cutLines_append (before after : List Char) : cutLines (before ++ '\n' :: after) =
    cutLines (before ++ ['\n']) ++ cutLines after := by
  induction before with
  | nil => rfl
  | cons c before ih =>
    have some : cutLines (before ++ ['\n']) ≠ [] := by
      cases before with
      | nil => exact List.cons_ne_nil _ _
      | cons d before =>
        rw [List.cons_append, cutLines]
        split
        · exact List.cons_ne_nil _ _
        · split <;> exact List.cons_ne_nil _ _
    obtain ⟨first, others, eq⟩ := List.exists_cons_of_ne_nil some
    rw [List.cons_append, List.cons_append, cutLines, cutLines, ih, eq]
    split <;> rfl

theorem lines_append {s : String} (h : Ended s) (t : String) : lines (s ++ t) = lines s ++ lines t := by
  obtain ⟨before, eq⟩ := h
  rw [lines, lines, lines, String.toList_append, eq, List.append_assoc, List.singleton_append,
    cutLines_append, List.map_append]

/-- Texts that end with line breaks keep their lines to themselves. -/
theorem lines_join_append {texts : List String} (h : ∀ s ∈ texts, Ended s) (t : String) :
    lines (.join texts ++ t) = texts.flatMap lines ++ lines t := by
  induction texts with
  | nil => rw [String.join_nil, String.empty_append]; rfl
  | cons s texts ih =>
    rw [String.join_cons, String.append_assoc, lines_append (h s List.mem_cons_self),
      ih fun s mem => h s (List.mem_cons_of_mem _ mem), List.flatMap_cons, List.append_assoc]

theorem cutLines_of_notMem {line : List Char} (h : '\n' ∉ line) :
    cutLines (line ++ ['\n']) = [line] := by
  induction line with
  | nil => rfl
  | cons c line ih =>
    have other : c ≠ '\n' := fun eq => h (eq ▸ List.mem_cons_self)
    rw [List.cons_append, cutLines, if_neg other, ih fun mem => h (List.mem_cons_of_mem _ mem)]

theorem OneLine.lines_eq {text : String} (h : OneLine text) :
    (lines text).map (· ++ "\n") = [text] := by
  obtain ⟨line, eq, one⟩ := h
  have whole : String.ofList line ++ "\n" = text := by
    rw [← String.toList_inj, String.toList_append, String.toList_ofList, eq]
    rfl
  rw [lines, eq, cutLines_of_notMem one, List.map_singleton, List.map_singleton, whole]

end Text

open Text

/-! ## Records -/

namespace Log

theorem Field.newline_notMem_text {s : String} (h : '\n' ∉ s.toList) :
    '\n' ∉ (text s).line.toList := by
  simp [line, String.toList_append, h]

namespace Record

theorem ended_render (format : Format) (r : Record) : Ended (r.render format) := by
  cases format with
  | text => exact ⟨_, String.toList_append⟩
  | json => exact ⟨r.document.chars, String.toList_ofList⟩

/-- Neither the message nor a field of the record holds a line break. -/
structure Unbroken (r : Record) : Prop where
  message : '\n' ∉ r.message.toList
  fields : ∀ x ∈ r.fields, '\n' ∉ x.1.toList ∧ '\n' ∉ x.2.line.toList

theorem oneLine_render {r : Record} (h : r.Unbroken) (format : Format) :
    OneLine (r.render format) := by
  cases format with
  | text =>
    have level : '\n' ∉ r.level.text.toList := by cases r.level <;> decide
    have fields : ∀ x ∈ r.fields, '\n' ∉ (" " ++ x.1 ++ "=" ++ x.2.line).toList := by
      intro x mem
      obtain ⟨name, value⟩ := h.fields x mem
      simp [String.toList_append, name, value]
    refine ⟨_, String.toList_append, ?_⟩
    rw [String.toList_append, String.toList_join, List.flatMap_map, List.mem_append, not_or]
    constructor
    · simp [String.toList_append, level, h.message]
    · intro mem
      obtain ⟨x, hx, mem⟩ := List.mem_flatMap.mp mem
      exact fields x hx mem
  | json =>
    obtain ⟨line, eq, one, -⟩ := r.document.exists_line
    exact ⟨line, eq, one⟩

end Record

variable (format : Format) {level level' : Level} (records : List Record)

theorem lines_render_append (level : Level) (t : String) :
    lines (render format level records ++ t) =
      (keep level records).flatMap (fun r => lines (r.render format)) ++ lines t := by
  have ended : ∀ s ∈ (keep level records).map (Record.render format), Ended s := by
    intro s mem
    obtain ⟨r, -, rfl⟩ := List.mem_map.mp mem
    exact r.ended_render format
  rw [render, lines_join_append ended, List.flatMap_map]

/-- A log that tells more keeps what one that tells less does. -/
theorem keep_sublist (h : level.verbosity ≤ level'.verbosity) :
    (keep level records).Sublist (keep level' records) := by
  apply List.monotone_filter_right
  intro r kept
  rw [decide_eq_true_iff] at kept ⊢
  exact kept.trans h

theorem keep_trace : keep .trace records = records := by
  rw [keep, List.filter_eq_self]
  intro r _
  cases r.level <;> rfl

/-- Records of one line each are the lines of the log that tells everything. -/
theorem lines_render_trace {format : Format} {records : List Record}
    (h : ∀ r ∈ records, OneLine (r.render format)) :
    (lines (render format .trace records)).map (· ++ "\n") = records.map (Record.render format) := by
  have whole := lines_render_append format records .trace ""
  rw [String.append_empty, keep_trace] at whole
  calc (lines (render format .trace records)).map (· ++ "\n")
      = records.flatMap fun r => (lines (r.render format)).map (· ++ "\n") := by
        rw [whole, List.map_append, List.map_flatMap]
        exact List.append_nil _
    _ = records.flatMap fun r => [r.render format] :=
        List.flatMap_congr fun r mem => (h r mem).lines_eq
    _ = records.map (Record.render format) := List.map_eq_flatMap.symm

end Log

namespace Event

/-- The evaluator reports such an event, and not a predicate or the registry. -/
def ofEvaluator : Event → Bool
  | .typeRejected .. | .refinementRejected .. => true
  | _ => false

/-- What the evaluator reports is logged, and on one line. -/
theorem exists_record {e : Event} (h : e.ofEvaluator = true) :
    ∃ r, e.record? = some r ∧ r.Unbroken := by
  have kinds : ∀ k : KindName, '\n' ∉ k.text.toList := by intro k; cases k <;> decide
  have types : ∀ t : TypeName, '\n' ∉ t.text.toList := by intro t; cases t <;> decide
  have names : ∀ name ∈ ["kind", "found", "refinement"], '\n' ∉ name.toList := by decide
  cases e with
  | typeRejected kind found =>
    refine ⟨_, rfl, show '\n' ∉ "type check rejected value".toList by decide, ?_⟩
    exact List.forall_mem_cons.mpr ⟨⟨names _ (by simp), Log.Field.newline_notMem_text (kinds kind)⟩,
      List.forall_mem_singleton.mpr ⟨names _ (by simp), Log.Field.newline_notMem_text (types found)⟩⟩
  | refinementRejected kind index =>
    refine ⟨_, rfl, show '\n' ∉ "refinement rejected value".toList by decide, ?_⟩
    exact List.forall_mem_cons.mpr ⟨⟨names _ (by simp), Log.Field.newline_notMem_text (kinds kind)⟩,
      List.forall_mem_singleton.mpr ⟨names _ (by simp), notMem_toString rfl index⟩⟩
  | _ => cases h

theorem map_record?_eq {events : List Event} (h : ∀ e ∈ events, e.ofEvaluator = true) :
    events.map record? = (events.filterMap record?).map some := by
  induction events with
  | nil => rfl
  | cons e events ih =>
    obtain ⟨r, eq, -⟩ := exists_record (h e List.mem_cons_self)
    rw [List.map_cons, List.filterMap_cons_some eq, List.map_cons, eq,
      ih fun e mem => h e (List.mem_cons_of_mem _ mem)]

end Event

namespace Conformance

/-- The evaluation of the conformance cases leaves nothing but events of the evaluator. -/
theorem ofEvaluator_of_mem_cases :
    ∀ c ∈ Conformance.cases, ∀ e ∈ c.run.events, e.ofEvaluator = true := by decide +kernel

/-- A filter that selects something is on one line, for it is found in a description. -/
theorem newline_notMem_of_select {f : String} (h : select (some f) Conformance.cases ≠ []) :
    '\n' ∉ f.toList := by
  have descriptions : ∀ c ∈ Conformance.cases, '\n' ∉ c.description.toList := by decide +kernel
  obtain ⟨c, mem⟩ := List.exists_mem_of_ne_nil _ h
  rw [select_some_eq, List.mem_filter, decide_eq_true_iff, contains_iff_folded] at mem
  intro newline
  have folded : Char.toLower '\n' ∈ foldCase c.description :=
    mem.2.subset (List.mem_map_of_mem newline)
  obtain ⟨x, hx, same⟩ := List.mem_map.mp folded
  -- a line break has no other form
  rcases toLower_eq_toLower_iff.mp same with rfl | ⟨upper, eq⟩ | ⟨upper, -⟩
  · exact descriptions c mem.1 hx
  · rw [isUpper_iff] at upper
    have code : '\n'.toNat = 10 := rfl
    omega
  · cases upper

end Conformance

namespace CommandLine

open Conformance

/-- What is logged before the cases are run. -/
def begun (selected : Nat) (filter : Option String) : Log.Record :=
  ⟨.info, "running conformance cases",
    [("cases", .count selected), ("filter", .shown (showOptional filter))]⟩

theorem unbroken_begun {filter : Option String} (h : ∀ f ∈ filter, '\n' ∉ f.toList) (selected : Nat) :
    (begun selected filter).Unbroken := by
  have names : ∀ name ∈ ["cases", "filter"], '\n' ∉ name.toList := by decide
  have shown : '\n' ∉ (showOptional filter).toList := by
    cases filter with
    | none => decide
    | some f => simp [showOptional, String.toList_append, h f rfl]
  refine ⟨show '\n' ∉ "running conformance cases".toList by decide, ?_⟩
  exact List.forall_mem_cons.mpr ⟨⟨names _ (by simp), notMem_toString rfl selected⟩,
    List.forall_mem_singleton.mpr ⟨names _ (by simp), shown⟩⟩

/-- A run of cases that all pass logs its beginning and the events, and nobody complains. -/
theorem log_of_pass {filter : Option String} {cases : List Case} (color : Bool)
    (format : Conformance.Format) (h : select filter cases ≠ [])
    (pass : ∀ c ∈ select filter cases, c.run.result = true) :
    (conformance color format cases filter).log =
      begun (select filter cases).length filter ::
        (runAll (select filter cases)).events.filterMap Event.record? ∧
    (conformance color format cases filter).complaint = none := by
  have report := result_runAll_of_pass pass
  obtain ⟨first, rest, eq⟩ := List.exists_cons_of_ne_nil h
  rw [eq] at report ⊢
  rw [conformance, eq]
  dsimp only
  rw [report, (Report.allPassed_iff_failures_eq_nil _).mp (Report.allPassed_ofPassed _)]
  exact ⟨congrArg (begun (first :: rest).length filter :: ·) (List.append_nil _), rfl⟩

/-- A log that tells more has the lines of one that tells less. -/
theorem lines_errorOutput_sublist (c : Completion) (logFormat : Log.Format) {level level' : Log.Level}
    (h : level.verbosity ≤ level'.verbosity) :
    (lines (c.errorOutput logFormat level)).Sublist (lines (c.errorOutput logFormat level')) := by
  rw [Completion.errorOutput, Completion.errorOutput, Log.lines_render_append,
    Log.lines_render_append]
  exact ((Log.keep_sublist c.log h).flatMap _).append (.refl _)

/-- A run of selected cases that logs everything writes a line about its beginning, and then one for
every event. -/
theorem lines_errorOutput_conformance {filter : Option String} (color : Bool)
    (format : Conformance.Format) (logFormat : Log.Format)
    (h : select filter Conformance.cases ≠ []) :
    (lines ((conformance color format Conformance.cases filter).errorOutput logFormat .trace)).map
        (· ++ "\n") =
      (begun (select filter Conformance.cases).length filter ::
        (runAll (select filter Conformance.cases)).events.filterMap Event.record?).map
          (Log.Record.render logFormat) := by
  obtain ⟨log, silent⟩ := log_of_pass color format h selected_pass
  have beginning : (begun (select filter Conformance.cases).length filter).Unbroken := by
    apply unbroken_begun
    rintro f rfl
    exact newline_notMem_of_select h
  have events : ∀ r ∈ (runAll (select filter Conformance.cases)).events.filterMap Event.record?,
      r.Unbroken := by
    intro r mem
    obtain ⟨e, he, eq⟩ := List.mem_filterMap.mp mem
    rw [events_runAll] at he
    obtain ⟨c, hc, he⟩ := List.mem_flatMap.mp he
    obtain ⟨r', eq', unbroken⟩ :=
      Event.exists_record (ofEvaluator_of_mem_cases c (mem_select_iff.mp hc).1 e he)
    rw [eq, Option.some.injEq] at eq'
    exact eq' ▸ unbroken
  rw [Completion.errorOutput, silent, log, Option.elim_none, String.append_empty]
  refine Log.lines_render_trace fun r mem => Log.Record.oneLine_render ?_ logFormat
  rcases List.mem_cons.mp mem with rfl | mem
  · exact beginning
  · exact events r mem

/-- How the log is kept has no influence on the exit code and the output, for an invocation and for
any arguments that ask for it.  A log that tells less has some of the lines of one that tells more,
in order.  Where cases are selected to be run, the log that tells everything has one line about that,
and then one for every event of the selected cases, in order.  All these events come from the
evaluator. -/
theorem logging_leaves_results (surroundings : Surroundings) (command : Command)
    (format : Option Conformance.Format) (logFormat logFormat' : Log.Format)
    (level level' : Log.Level) :
    let ran (logFormat : Log.Format) (level : Log.Level) : Exit :=
      Invocation.run surroundings ⟨command, format, logFormat, level⟩
    ((ran logFormat level).code = (ran logFormat' level').code ∧
      (ran logFormat level).output = (ran logFormat' level').output) ∧
    (∀ arguments arguments',
      Invocation.ofArguments arguments = .ok ⟨command, format, logFormat, level⟩ →
      Invocation.ofArguments arguments' = .ok ⟨command, format, logFormat', level'⟩ →
      (run surroundings arguments).code = (run surroundings arguments').code ∧
      (run surroundings arguments).output = (run surroundings arguments').output) ∧
    (level.verbosity ≤ level'.verbosity →
      (lines (ran logFormat level).errorOutput).Sublist (lines (ran logFormat level').errorOutput)) ∧
    ∀ filter, command = .conformance filter →
      let selected := select filter Conformance.cases
      selected ≠ [] → ∃ records,
        (selected.flatMap fun c => c.run.events).map Event.record? = records.map some ∧
        (∀ c ∈ selected, ∀ e ∈ c.run.events, e.ofEvaluator = true) ∧
        (lines (ran logFormat .trace).errorOutput).map (· ++ "\n") =
          (begun selected.length filter :: records).map (Log.Record.render logFormat) := by
  intro ran
  refine ⟨⟨rfl, rfl⟩, ?_, lines_errorOutput_sublist _ logFormat, ?_⟩
  · intro arguments arguments' read read'
    rw [run, run, read, read']
    exact ⟨rfl, rfl⟩
  · rintro filter rfl selected some
    have evaluator : ∀ c ∈ selected, ∀ e ∈ c.run.events, e.ofEvaluator = true :=
      fun c mem => ofEvaluator_of_mem_cases c (mem_select_iff.mp mem).1
    have all : ∀ e ∈ selected.flatMap fun c => c.run.events, e.ofEvaluator = true := by
      intro e mem
      obtain ⟨c, hc, mem⟩ := List.mem_flatMap.mp mem
      exact evaluator c hc e mem
    refine ⟨_, Event.map_record?_eq all, evaluator, ?_⟩
    rw [← events_runAll]
    exact lines_errorOutput_conformance surroundings.color _ logFormat some

/-- The cases that are selected by "unions", with a log of little and with a log of everything. -/
theorem logging_leaves_results_unions :
    Invocation.ofArguments ["conformance", "--filter", "UNIONS"] =
      .ok ⟨.conformance (some "UNIONS"), none, .text, .info⟩ ∧
    Invocation.ofArguments ["--log-level=trace", "conformance", "--log-format", "json",
      "--filter=UNIONS"] = .ok ⟨.conformance (some "UNIONS"), none, .json, .trace⟩ ∧
    (run ⟨⟨"", "", "", "", ""⟩, false, .raw⟩ ["conformance", "--filter", "UNIONS"]).output =
      (run ⟨⟨"", "", "", "", ""⟩, false, .raw⟩ ["--log-level=trace", "conformance", "--log-format",
        "json", "--filter=UNIONS"]).output ∧
    Log.Level.info.verbosity ≤ Log.Level.trace.verbosity ∧
    (lines (Invocation.run ⟨⟨"", "", "", "", ""⟩, false, .raw⟩
        ⟨.conformance (some "UNIONS"), none, .text, .info⟩).errorOutput).Sublist
      (lines (Invocation.run ⟨⟨"", "", "", "", ""⟩, false, .raw⟩
        ⟨.conformance (some "UNIONS"), none, .text, .trace⟩).errorOutput) ∧
    select (some "UNIONS") Conformance.cases ≠ [] ∧
    ∃ records, (lines (Invocation.run ⟨⟨"", "", "", "", ""⟩, false, .raw⟩
        ⟨.conformance (some "UNIONS"), none, .text, .trace⟩).errorOutput).map (· ++ "\n") =
      (" INFO running conformance cases cases=4 filter=Some(\"UNIONS\")\n" :: records) := by
  have brief : Invocation.ofArguments ["conformance", "--filter", "UNIONS"] =
      .ok ⟨.conformance (some "UNIONS"), none, .text, .info⟩ := by rfl
  have full : Invocation.ofArguments ["--log-level=trace", "conformance", "--log-format", "json",
      "--filter=UNIONS"] = .ok ⟨.conformance (some "UNIONS"), none, .json, .trace⟩ := by rfl
  have four : (select (some "UNIONS") Conformance.cases).length = 4 := by decide +kernel
  have selected : select (some "UNIONS") Conformance.cases ≠ [] :=
    List.ne_nil_of_length_pos (by rw [four]; decide)
  obtain ⟨-, asked, fewer, traced⟩ := logging_leaves_results ⟨⟨"", "", "", "", ""⟩, false, .raw⟩
    (.conformance (some "UNIONS")) none .text .json .info .trace
  obtain ⟨records, -, -, eq⟩ := traced _ rfl selected
  refine ⟨brief, full, (asked _ _ brief full).2, by decide, fewer (by decide), selected,
    records.map (Log.Record.render .text), eq.trans ?_⟩
  rw [four, List.map_cons]
  exact congrArg (· :: _) (by decide +kernel)

end CommandLine

end SchemaValidation
