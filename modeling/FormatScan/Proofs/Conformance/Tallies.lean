import FormatScan.Proofs.Conformance.Blocks
import FormatScan.Proofs.Text.ByteOrder
import Mathlib.Algebra.Ring.Nat

/-!
# Tallies of results

The results of a run are counted in several ways: all of them, those that passed, those that
failed, and both for each function. A tally is kept for each function in the order of the
names, and every result is added to the tally of its function, or opens one in its place. So
no result is lost and none is counted twice. Whatever functions are chosen, their tallies add
up to the results of these functions: one function gives its own row, and all of them give
the counts of the run. The Markdown form prints these rows and no others.
-/

namespace FormatScan

open Text (wholeLines)

namespace Tally

/-- Tallies in the order of their functions, no function twice. -/
def Ordered (tallies : List Tally) : Prop := tallies.Pairwise fun a b => a.symbol < b.symbol

/-- What adding a result does at the first tally, by where the function comes: ahead of it
a tally is opened, the tally of the function itself counts on, and behind it the later ones
are looked at. -/
theorem add_cons_cases (result : CaseResult) (tally : Tally) (rest : List Tally) :
    (result.symbol < tally.symbol ∧
        add result (tally :: rest) = ⟨result.symbol, result.passed.toNat, 1⟩ :: tally :: rest) ∨
      (result.symbol = tally.symbol ∧ add result (tally :: rest) =
        ⟨tally.symbol, tally.passed + result.passed.toNat, tally.total + 1⟩ :: rest) ∨
      (tally.symbol < result.symbol ∧ add result (tally :: rest) = tally :: add result rest) := by
  rw [add]
  rcases lt_trichotomy result.symbol tally.symbol with hless | hsame | hmore
  · exact .inl ⟨hless, if_pos hless⟩
  · refine .inr (.inl ⟨hsame, ?_⟩)
    rw [if_neg (hsame ▸ lt_irrefl _), if_pos (beq_iff_eq.mpr hsame)]
  · refine .inr (.inr ⟨hmore, ?_⟩)
    rw [if_neg (lt_asymm hmore), if_neg (fun hsame => hmore.ne' (eq_of_beq hsame))]

/-- A result is added to a tally of its function, whether there was one or not. -/
theorem mem_symbols_add (result : CaseResult) (tallies : List Tally) (symbol : String) :
    symbol ∈ (add result tallies).map Tally.symbol ↔
      symbol = result.symbol ∨ symbol ∈ tallies.map Tally.symbol := by
  induction tallies with
  | nil => simp [add]
  | cons tally rest ih =>
    rcases add_cons_cases result tally rest with ⟨_, hadd⟩ | ⟨hsame, hadd⟩ | ⟨_, hadd⟩
    · simp [hadd]
    · simp [hadd, hsame]
    · rw [hadd, List.map_cons, List.mem_cons, ih, List.map_cons, List.mem_cons]
      exact or_left_comm

/-- Adding a result keeps the order. -/
theorem Ordered.add {tallies : List Tally} (h : Ordered tallies) (result : CaseResult) :
    Ordered (Tally.add result tallies) := by
  induction tallies with
  | nil => exact List.pairwise_singleton _ _
  | cons tally rest ih =>
    obtain ⟨hfirst, hrest⟩ := List.pairwise_cons.mp h
    rcases add_cons_cases result tally rest with ⟨hless, hadd⟩ | ⟨_, hadd⟩ | ⟨hmore, hadd⟩
    · rw [hadd]
      refine List.pairwise_cons.mpr ⟨fun other hother => ?_, h⟩
      rcases List.mem_cons.mp hother with rfl | hother
      · exact hless
      · exact lt_trans hless (hfirst other hother)
    · rw [hadd]
      exact List.pairwise_cons.mpr ⟨hfirst, hrest⟩
    · rw [hadd]
      refine List.pairwise_cons.mpr ⟨fun other hother => ?_, ih hrest⟩
      -- a tally behind the first one is of the result's function, or was there before
      rcases (mem_symbols_add result rest other.symbol).mp (List.mem_map_of_mem hother) with
        hsymbol | hsymbol
      · exact hsymbol ▸ hmore
      · obtain ⟨known, hknown, hsymbol⟩ := List.mem_map.mp hsymbol
        exact hsymbol ▸ hfirst known hknown

/-- Adding results one by one opens a tally for each of their functions. -/
theorem mem_symbols_foldl (results : List CaseResult) (tallies : List Tally) (symbol : String) :
    symbol ∈ (results.foldl (fun tallies result => add result tallies) tallies).map
        Tally.symbol ↔
      symbol ∈ results.map CaseResult.symbol ∨ symbol ∈ tallies.map Tally.symbol := by
  induction results generalizing tallies with
  | nil => simp
  | cons result results ih =>
    rw [List.foldl_cons, ih, mem_symbols_add, List.map_cons, List.mem_cons, or_assoc,
      or_left_comm]

/-- Adding results one by one keeps the order. -/
theorem Ordered.foldl {tallies : List Tally} (h : Ordered tallies) (results : List CaseResult) :
    Ordered (results.foldl (fun tallies result => Tally.add result tallies) tallies) := by
  induction results generalizing tallies with
  | nil => exact h
  | cons result results ih => exact ih (h.add result)

/-- A column of the tallies: its number in each of them, and which results it counts. -/
structure Column where
  /-- The number in a tally. -/
  entry : Tally → Nat
  /-- Whether a result is counted. -/
  counts : CaseResult → Bool
  /-- The tally of a first result has that one counted. -/
  entry_new : ∀ result : CaseResult,
    entry ⟨result.symbol, result.passed.toNat, 1⟩ = (counts result).toNat
  /-- A later result is counted in addition. -/
  entry_add : ∀ (tally : Tally) (result : CaseResult),
    entry ⟨tally.symbol, tally.passed + result.passed.toNat, tally.total + 1⟩ =
      entry tally + (counts result).toNat

/-- The column of the results that passed. -/
def passedColumn : Column := ⟨Tally.passed, CaseResult.passed, fun _ => rfl, fun _ _ => rfl⟩

/-- The column of all results. -/
def totalColumn : Column := ⟨Tally.total, fun _ => true, fun _ => rfl, fun _ _ => rfl⟩

namespace Column

variable (column : Column) (chosen : String → Bool)

/-- The sum of a column over the tallies of some functions. -/
def sum (tallies : List Tally) : Nat :=
  ((tallies.filter (chosen ·.symbol)).map column.entry).sum

theorem sum_nil : column.sum chosen [] = 0 := rfl

theorem sum_cons (tally : Tally) (rest : List Tally) :
    column.sum chosen (tally :: rest) =
      (if chosen tally.symbol then column.entry tally else 0) + column.sum chosen rest := by
  unfold sum
  rw [List.filter_cons]
  split
  · rw [List.map_cons, List.sum_cons]
  · rw [Nat.zero_add]

/-- The sum grows by a result that is counted and has its function among the chosen ones. -/
theorem sum_add (result : CaseResult) (tallies : List Tally) :
    column.sum chosen (add result tallies) = column.sum chosen tallies +
      if chosen result.symbol then (column.counts result).toNat else 0 := by
  induction tallies with
  | nil => rw [add, sum_cons, sum_nil, column.entry_new, Nat.add_comm]
  | cons tally rest ih =>
    rcases add_cons_cases result tally rest with ⟨_, hadd⟩ | ⟨hsame, hadd⟩ | ⟨_, hadd⟩
    · rw [hadd, sum_cons, column.entry_new, Nat.add_comm]
    · rw [hadd, sum_cons, sum_cons, column.entry_add, hsame]
      split <;> omega
    · rw [hadd, sum_cons, sum_cons, ih, Nat.add_assoc]

/-- Adding results one by one counts them. -/
theorem sum_foldl (results : List CaseResult) (tallies : List Tally) :
    column.sum chosen (results.foldl (fun tallies result => add result tallies) tallies) =
      column.sum chosen tallies +
        results.countP fun result => chosen result.symbol && column.counts result := by
  induction results generalizing tallies with
  | nil => rfl
  | cons result results ih =>
    have hshare : (if chosen result.symbol then (column.counts result).toNat else 0) =
        if (chosen result.symbol && column.counts result) = true then 1 else 0 := by
      cases chosen result.symbol <;> cases column.counts result <;> rfl
    rw [List.foldl_cons, ih, sum_add, List.countP_cons, hshare]
    omega

/-- Among tallies in order, those of one function are its own tally. -/
theorem sum_of_mem {tallies : List Tally} (h : Ordered tallies) {tally : Tally}
    (hmem : tally ∈ tallies) :
    column.sum (· == tally.symbol) tallies = column.entry tally := by
  have hothers : ∀ rest : List Tally, (∀ other ∈ rest, tally.symbol < other.symbol) →
      column.sum (· == tally.symbol) rest = 0 := by
    intro rest hrest
    have hnone : rest.filter (·.symbol == tally.symbol) = [] := by
      refine List.filter_eq_nil_iff.mpr fun other hother hsame => ?_
      exact absurd (eq_of_beq hsame) (ne_of_gt (hrest other hother))
    rw [sum, hnone]
    rfl
  induction tallies with
  | nil => cases hmem
  | cons first rest ih =>
    obtain ⟨hfirst, hrest⟩ := List.pairwise_cons.mp h
    rw [sum_cons]
    rcases List.mem_cons.mp hmem with rfl | hmem
    · rw [if_pos (beq_self_eq_true tally.symbol), hothers rest hfirst, Nat.add_zero]
    · have hne : ¬(first.symbol == tally.symbol) = true := fun hsame =>
        absurd (eq_of_beq hsame) (ne_of_lt (hfirst tally hmem))
      rw [if_neg hne, Nat.zero_add, ih hrest hmem]

end Column

/-- Rows that tell for each function how many results it has and how many of them passed. -/
structure Tells (rows : List Tally) (results : List CaseResult) : Prop where
  /-- The rows are in the order of the bytes of their names, so no function has two. -/
  ordered : (rows.map fun row => bytesOf row.symbol).Pairwise (· < ·)
  /-- Each function that has a result has a row, and no other has one. -/
  mem_iff : ∀ symbol, symbol ∈ rows.map Tally.symbol ↔ symbol ∈ results.map CaseResult.symbol
  /-- A row counts the results of its function. -/
  total_eq : ∀ row ∈ rows, row.total = results.countP (·.symbol == row.symbol)
  /-- It counts those of them that passed. -/
  passed_eq : ∀ row ∈ rows, row.passed =
    results.countP fun result => result.symbol == row.symbol && result.passed

end Tally

namespace Summary

/-- The tallies are in order, however the results come. -/
theorem ordered_bySymbol (summary : Summary) : Tally.Ordered summary.bySymbol :=
  Tally.Ordered.foldl List.Pairwise.nil summary.results

/-- The tallies are those of the functions of the results. -/
theorem mem_symbols_bySymbol (summary : Summary) (symbol : String) :
    symbol ∈ summary.bySymbol.map Tally.symbol ↔
      symbol ∈ summary.results.map CaseResult.symbol := by
  rw [bySymbol, Tally.mem_symbols_foldl]
  simp

/-- Some functions have as many results in the tallies as in the run. -/
theorem sum_bySymbol (summary : Summary) (column : Tally.Column) (chosen : String → Bool) :
    column.sum chosen summary.bySymbol =
      summary.results.countP fun result => chosen result.symbol && column.counts result := by
  rw [bySymbol, column.sum_foldl, column.sum_nil, Nat.zero_add]

/-- The row of a function counts the results of that function. -/
theorem entry_of_mem_bySymbol (summary : Summary) (column : Tally.Column) {row : Tally}
    (h : row ∈ summary.bySymbol) :
    column.entry row =
      summary.results.countP fun result => result.symbol == row.symbol && column.counts result := by
  rw [← column.sum_of_mem summary.ordered_bySymbol h]
  exact summary.sum_bySymbol column (· == row.symbol)

/-- All rows together count all results. -/
theorem sum_entries_bySymbol (summary : Summary) (column : Tally.Column) :
    (summary.bySymbol.map column.entry).sum = summary.results.countP column.counts := by
  have hall := summary.sum_bySymbol column fun _ => true
  simpa [Tally.Column.sum] using hall

theorem tells_bySymbol (summary : Summary) :
    Tally.Tells summary.bySymbol summary.results := by
  refine ⟨?_, summary.mem_symbols_bySymbol, fun row hrow => ?_, fun row hrow => ?_⟩
  · rw [List.pairwise_map]
    exact summary.ordered_bySymbol.imp bytesOf_lt
  · have htotal := summary.entry_of_mem_bySymbol Tally.totalColumn hrow
    simpa [Tally.totalColumn] using htotal
  · exact summary.entry_of_mem_bySymbol Tally.passedColumn hrow

/-- The results that did not pass, each as often as it came up. -/
theorem count_failures (results : List CaseResult) (result : CaseResult) :
    (ofResults results).failures.count result =
      if result.passed then 0 else results.count result := by
  unfold failures ofResults
  cases hp : result.passed with
  | true =>
    refine List.count_eq_zero.mpr fun hmem => ?_
    simpa [hp] using (List.mem_filter.mp hmem).2
  | false => exact List.count_filter (by rw [hp]; rfl)

/-- The results that passed and those that did not are all results. -/
theorem length_failures (results : List CaseResult) :
    (ofResults results).failures.length = (ofResults results).failed := by
  have hboth := List.length_eq_countP_add_countP CaseResult.passed (l := results)
  have hfailed : (ofResults results).failures.length =
      results.countP fun result => !result.passed := List.countP_eq_length_filter.symm
  have hpassed : (ofResults results).passed = results.countP CaseResult.passed :=
    List.countP_eq_length_filter.symm
  have hrest : (ofResults results).failed = results.length - (ofResults results).passed := rfl
  simp only [Bool.not_eq_true, Bool.decide_eq_false] at hboth
  omega

end Summary

namespace Report

/-- The heading and the counts, line by line. -/
def headingLines (report : Report) : List String :=
  ["# " ++ report.title, "", "- Campaign: " ++ report.campaign,
    "- Timestamp: " ++ report.timestamp, "- Total: " ++ toString report.summary.total,
    "- Passed: " ++ toString report.summary.passed,
    "- Failed: " ++ toString report.summary.failed, ""]

/-- A table with a line for each function. -/
def tallyLines (rows : List Tally) : List String :=
  ["| Function | Passed | Total |", "|----------|--------|-------|"] ++ rows.map fun row =>
    "| " ++ row.symbol ++ " | " ++ toString row.passed ++ " | " ++ toString row.total ++ " |"

/-- A table with a line for each result, which says whether it passed. -/
def caseLines (results : List CaseResult) : List String :=
  ["| Case | Function | Clause | Status |", "|------|----------|--------|--------|"] ++
    results.map fun result => "| " ++ result.caseName ++ " | " ++ result.symbol ++ " | " ++
      result.clause ++ " | " ++ (if result.passed then "PASS" else "FAIL") ++ " |"

theorem toList_heading (report : Report) :
    report.heading.toList = wholeLines report.headingLines := by
  unfold heading headingLines
  simp [wholeLines, Text.toString_text]

theorem toList_tallyTable (summary : Summary) :
    (tallyTable summary).toList = wholeLines (tallyLines summary.bySymbol ++ [""]) := by
  unfold tallyTable tallyLines tallyRow
  simp [wholeLines, Text.toString_text, List.flatMap_map]

theorem toList_caseTable (summary : Summary) :
    (caseTable summary).toList = wholeLines (caseLines summary.results) := by
  unfold caseTable caseLines caseRow
  simp [wholeLines, Text.toString_text, List.flatMap_map]

/-- The counts of a list of results agree with each other and with what is printed. The total
is the number of results and the sum of those that passed and those that failed. The failures
are the results that did not pass, in their order, and all passed when there are none. There
is one row for each function, in the order of the bytes of the names, with the numbers of its
results and of those that passed, and the rows add up to the totals. The Markdown form
consists of the counts, just these rows, a line for each result in the order of the list, and
the part for the failures. -/
theorem markdown_tells (results : List CaseResult) :
    let summary := Summary.ofResults results
    let rows := summary.bySymbol
    (summary.total = results.length ∧ summary.total = summary.passed + summary.failed ∧
        summary.passed = results.countP (·.passed)) ∧
      (summary.failures.Sublist results ∧
        (∀ result, summary.failures.count result =
          if result.passed then 0 else results.count result) ∧
        (summary.allPassed = true ↔ summary.failures = [])) ∧
      (Tally.Tells rows results ∧ (rows.map Tally.passed).sum = summary.passed ∧
        (rows.map Tally.total).sum = summary.total) ∧
      ∀ title campaign timestamp,
        let report : Report := ⟨title, campaign, timestamp, summary⟩
        report.markdown.toList =
          wholeLines (report.headingLines ++ (tallyLines rows ++ "" :: caseLines results)) ++
            (failureSection summary).toList := by
  intro summary rows
  have hpassed : summary.passed = results.countP (·.passed) := List.countP_eq_length_filter.symm
  have hle : summary.passed ≤ results.length := hpassed ▸ List.countP_le_length
  have hfailed : summary.failed = results.length - summary.passed := rfl
  refine ⟨⟨rfl, ?_, hpassed⟩, ⟨List.filter_sublist, Summary.count_failures results, ?_⟩,
    ⟨summary.tells_bySymbol, ?_, ?_⟩, fun title campaign timestamp => ?_⟩
  · rw [hfailed, Nat.add_sub_cancel' hle]
    rfl
  · rw [Summary.allPassed, beq_iff_eq, ← Summary.length_failures, List.length_eq_zero_iff]
  · rw [hpassed]
    exact summary.sum_entries_bySymbol Tally.passedColumn
  · have htotal := summary.sum_entries_bySymbol Tally.totalColumn
    rw [Tally.totalColumn, List.countP_true] at htotal
    exact htotal
  · intro report
    have hlines : wholeLines (report.headingLines ++ (tallyLines rows ++ "" :: caseLines results)) =
        report.heading.toList ++ (tallyTable summary).toList ++ (caseTable summary).toList := by
      rw [toList_heading, toList_tallyTable, toList_caseTable, ← Text.wholeLines_append,
        ← Text.wholeLines_append, List.append_assoc, List.append_assoc]
      rfl
    rw [hlines, markdown, String.toList_append, String.toList_append, String.toList_append]

end Report

end FormatScan
