import SchemaValidation.Conformance.Rendering
import SchemaValidation.Proofs.Numerals
import Mathlib.Tactic.TFAE

/-!
# Verdicts

Whether all cases passed is decided more than once: by a look at every outcome, by counting those
that passed, by listing those that did not, and each format shows the decision in its own way.  For
every list of outcomes they agree (`Conformance.Report.formats_agree`).

Of the text for a reader and of the text under the table the last line is read (`Text.lastLine?`).
The descriptions above it may be empty or hold line breaks of their own, and one of them may look
like a verdict.
-/

namespace SchemaValidation

namespace Text

/-- The last line of a text in which every line is ended by a line break. -/
def lastLine? (text : String) : Option String :=
  match text.toList.reverse with
  | '\n' :: backwards => some (.ofList (backwards.takeWhile (· ≠ '\n')).reverse)
  | _ => none

end Text

/-- A member of an object that is to be written out. -/
def Document.member? (d : Document) (name : String) : Option Document :=
  match d with
  | .object members => members.lookup name
  | _ => none

namespace Conformance

open Text

/-! ## Lines -/

theorem toList_unlines_concat (lines : List String) (last : String) :
    (unlines (lines ++ [last])).toList = (unlines lines).toList ++ last.toList ++ ['\n'] := by
  simp [unlines, String.toList_join, String.toList_append]

/-- Read backwards, nothing comes before the line break at the end. -/
theorem takeWhile_reverse_unlines (lines : List String) :
    (unlines lines).toList.reverse.takeWhile (· ≠ '\n') = [] := by
  rcases List.eq_nil_or_concat lines with rfl | ⟨before, last, rfl⟩
  · rfl
  · rw [List.concat_eq_append, toList_unlines_concat, List.reverse_append]
    rfl

/-- A line without a line break of its own is read back, whatever stands above it. -/
theorem lastLine?_unlines_concat (lines : List String) {last : String}
    (one : '\n' ∉ last.toList) : lastLine? (unlines (lines ++ [last])) = some last := by
  have text : (unlines (lines ++ [last])).toList.reverse =
      '\n' :: (last.toList.reverse ++ (unlines lines).toList.reverse) := by
    rw [toList_unlines_concat, List.reverse_append, List.reverse_append]
    rfl
  have whole : ∀ c ∈ last.toList.reverse, decide (c ≠ '\n') = true := by
    intro c mem
    rw [decide_eq_true_iff]
    rintro rfl
    exact one (List.mem_reverse.mp mem)
  rw [lastLine?, text]
  show some (String.ofList (List.takeWhile _ (_ ++ _)).reverse) = some last
  rw [List.takeWhile_append_of_pos whole, takeWhile_reverse_unlines, List.append_nil,
    List.reverse_reverse, String.ofList_toList]

theorem unlines_eq_empty_iff {lines : List String} : unlines lines = "" ↔ lines = [] := by
  constructor
  · intro empty
    rcases List.eq_nil_or_concat lines with rfl | ⟨before, last, rfl⟩
    · rfl
    · have chars := congrArg String.toList empty
      rw [List.concat_eq_append, toList_unlines_concat] at chars
      simp at chars
  · rintro rfl
    rfl

/-! ## Counts -/

/-- The line that counts so many passed, failed and total cases. -/
def countsLine (passed failed total : Nat) : String :=
  toString passed ++ " passed, " ++ toString failed ++ " failed, " ++ toString total ++ " total"

/-- The counts can be read off the line. -/
theorem countsLine_inj {p f t p' f' t' : Nat} (h : countsLine p f t = countsLine p' f' t') :
    p = p' ∧ f = f' ∧ t = t' := by
  have chars := congrArg String.toList h
  -- each number ends at a blank
  have passed : " passed, ".toList = ' ' :: "passed, ".toList := rfl
  have failed : " failed, ".toList = ' ' :: "failed, ".toList := rfl
  have total : " total".toList = ' ' :: "total".toList := rfl
  simp only [countsLine, String.toList_append, toList_toString, List.append_assoc, passed, failed,
    total, List.cons_append] at chars
  obtain ⟨eq, -, chars⟩ := toDigits_append_inj rfl rfl chars
  obtain ⟨eq', -, chars⟩ := toDigits_append_inj rfl rfl (List.append_cancel_left chars)
  obtain ⟨eq'', -⟩ := toDigits_append_inj rfl rfl (List.append_cancel_left chars)
  exact ⟨eq, eq', eq''⟩

namespace Report

variable (r : Report)

theorem allPassed_iff_failed_eq_zero : r.allPassed = true ↔ r.failed = 0 := by
  rw [allPassed, List.all_eq_true, ← List.countP_eq_length, ← passed, ← total, failed,
    Nat.sub_eq_zero_iff_le]
  constructor
  · intro eq
    exact eq.ge
  · intro le
    exact r.passed_le_total.antisymm le

/-- What did not pass is what failed. -/
theorem length_failures : r.failures.length = r.failed := by
  have split : r.total = r.passed + r.failures.length := by
    rw [failures, ← List.countP_eq_length_filter]
    simpa [total, passed] using List.length_eq_countP_add_countP Outcome.passed
  rw [failed, split, Nat.add_sub_cancel_left]

theorem mem_failures_iff {o : Outcome} : o ∈ r.failures ↔ o ∈ r.outcomes ∧ o.passed = false := by
  rw [failures, List.mem_filter, Bool.not_eq_true']

theorem allPassed_iff_failures_eq_nil : r.allPassed = true ↔ r.failures = [] := by
  rw [allPassed_iff_failed_eq_zero, ← length_failures, List.length_eq_zero_iff]

theorem newline_notMem_verdict : '\n' ∉ r.verdict.toList := by
  rw [verdict]
  split
  · decide
  · simp only [String.toList_append, List.mem_append, not_or]
    exact ⟨⟨⟨notMem_toString rfl _, by decide⟩, notMem_toString rfl _⟩, by decide⟩

theorem newline_notMem_counts : '\n' ∉ r.counts.toList := by
  simp only [counts, String.toList_append, List.mem_append, not_or]
  exact ⟨⟨⟨⟨⟨notMem_toString rfl _, by decide⟩, notMem_toString rfl _⟩, by decide⟩,
    notMem_toString rfl _⟩, by decide⟩

theorem lastLine?_pretty : lastLine? (r.render false .pretty) = some r.verdict := by
  have lines : r.prettyLines false = (paint false bold "[i] Running conformance cases..." ::
      r.outcomes.map (fun o => (if o.passed then "[+]" else "[-]") ++ " " ++ o.description) ++
        [""]) ++ [r.verdict] := by
    rw [List.append_assoc]
    rfl
  rw [render, lines]
  exact lastLine?_unlines_concat _ r.newline_notMem_verdict

theorem lastLine?_table (color : Bool) : lastLine? (r.render color .table) = some r.counts :=
  lastLine?_unlines_concat _ r.newline_notMem_counts

/-- Only where all cases pass does the verdict begin with a letter. -/
theorem verdict_eq_iff : r.verdict = "ALL CASES PASSED!" ↔ r.allPassed = true := by
  rw [verdict]
  split
  next passed => exact iff_of_true rfl passed
  next passed =>
    refine iff_of_false (fun eq => ?_) passed
    have chars := congrArg String.toList eq
    simp only [String.toList_append, toList_toString, List.append_assoc] at chars
    obtain ⟨first, digits, split⟩ :=
      List.exists_cons_of_ne_nil (Nat.toDigits_ne_nil (n := r.failed))
    have digit : first.isDigit = true := isDigit_of_mem_toDigits (split ▸ List.mem_cons_self)
    rw [split] at chars
    rw [(List.cons.inj chars).1] at digit
    cases digit

theorem reports_none_failed_iff {color : Bool} :
    (∃ passed total, lastLine? (r.render color .table) = some (countsLine passed 0 total)) ↔
      r.failed = 0 := by
  rw [lastLine?_table]
  constructor
  · rintro ⟨passed, total, eq⟩
    exact (countsLine_inj (Option.some.inj eq)).2.1
  · intro none
    refine ⟨r.passed, r.total, ?_⟩
    rw [← none]
    rfl

theorem member?_overall :
    r.document.member? "overall" = some (.text (if r.allPassed then "pass" else "fail")) :=
  rfl

theorem member?_overall_eq_pass_iff :
    r.document.member? "overall" = some (.text "pass") ↔ r.allPassed = true := by
  rw [member?_overall]
  cases r.allPassed <;> simp

/-- No more cases pass than there are; the others have failed, and are listed in order.  The ways to
tell that there are none of these, which are the outcomes, the count, the document, the failures
alone, the verdict for a reader and the counts under the table, all agree.  Otherwise the verdict and
the counts name the numbers that the document has. -/
theorem formats_agree (r : Report) :
    (r.passed ≤ r.total ∧ r.passed + r.failed = r.total) ∧
    (r.failures.Sublist r.outcomes ∧ (∀ o, o ∈ r.failures ↔ o ∈ r.outcomes ∧ o.passed = false) ∧
      r.failures.length = r.failed) ∧
    r.render false .json = r.document.line ∧
    [r.allPassed = true,
      r.failed = 0,
      r.document.member? "overall" = some (.text "pass"),
      r.render false .raw = "",
      lastLine? (r.render false .pretty) = some "ALL CASES PASSED!",
      ∃ passed total, lastLine? (r.render false .table) = some (countsLine passed 0 total)].TFAE ∧
    (r.allPassed = false → ∃ passed failed total,
      r.document.member? "passed" = some (.count passed) ∧
      r.document.member? "failed" = some (.count failed) ∧
      r.document.member? "total" = some (.count total) ∧
      lastLine? (r.render false .pretty) =
        some (toString failed ++ " OF " ++ toString total ++ " CASES FAILED!") ∧
      lastLine? (r.render false .table) = some (countsLine passed failed total)) := by
  refine ⟨⟨r.passed_le_total, r.passed_add_failed⟩, ⟨?_, ?_, r.length_failures⟩, rfl, ?_, ?_⟩
  · exact List.filter_sublist
  · intro o
    exact r.mem_failures_iff
  · tfae_have 1 ↔ 2 := r.allPassed_iff_failed_eq_zero
    tfae_have 3 ↔ 1 := r.member?_overall_eq_pass_iff
    tfae_have 4 ↔ 1 := by
      rw [allPassed_iff_failures_eq_nil, render, unlines_eq_empty_iff, List.map_eq_nil_iff]
    tfae_have 5 ↔ 1 := by
      rw [lastLine?_pretty, Option.some.injEq, verdict_eq_iff]
    tfae_have 6 ↔ 2 := r.reports_none_failed_iff
    tfae_finish
  · intro failed
    refine ⟨r.passed, r.failed, r.total, rfl, rfl, rfl, ?_, r.lastLine?_table false⟩
    rw [lastLine?_pretty, verdict, failed]
    rfl

/-- One case of three has failed, and its description has two lines. -/
theorem formats_agree_broken :
    let r : Report := ⟨[⟨"a", true⟩, ⟨"b\nALL CASES PASSED!", false⟩, ⟨"", true⟩]⟩
    r.allPassed = false ∧ lastLine? (r.render false .pretty) = some "1 OF 3 CASES FAILED!" ∧
      lastLine? (r.render false .table) = some "2 passed, 1 failed, 3 total" := by
  intro r
  have failed : r.allPassed = false := by decide
  obtain ⟨-, -, -, -, ends⟩ := formats_agree r
  obtain ⟨passed, failures, total, hp, hf, ht, pretty, table⟩ := ends failed
  cases hp
  cases hf
  cases ht
  exact ⟨failed, pretty.trans (by decide +kernel), table.trans (by decide +kernel)⟩

end Report

end Conformance

end SchemaValidation
