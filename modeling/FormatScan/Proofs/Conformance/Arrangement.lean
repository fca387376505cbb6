import FormatScan.Conformance.CommandLine
import FormatScan.Proofs.Log.Run
import Mathlib.Data.List.Nodup

/-!
# Arrangements of cases

The cases of a run come in sets, and the sets in an order, but a report is put in the
order of families, functions and names. Where no two cases agree in these three, that
order leaves no choice: runs over the same cases, however they are arranged, have one
list of results and so one report.
-/

namespace FormatScan

namespace CaseResult

/-- What a result is placed by: its family, its function and its name. -/
def key (result : CaseResult) : String × String × String :=
  (result.family, result.symbol, result.caseName)

/-- The order of results as a comparison: where the families agree the functions decide,
and where these agree too, the names. -/
def compareKeys : CaseResult → CaseResult → Ordering :=
  compareLex (compareOn family) (compareLex (compareOn symbol) (compareOn caseName))

instance : Std.TransCmp compareKeys :=
  inferInstanceAs (Std.TransCmp
    (compareLex (compareOn family) (compareLex (compareOn symbol) (compareOn caseName))))

theorem isLE_compare (a b : String) : (compare a b).isLE = decide (a ≤ b) := by
  rw [Bool.eq_iff_iff, decide_eq_true_iff]
  exact isLE_compareOfLessAndEq String.le_antisymm String.not_le String.le_total

/-- A comparison of strings that comes first decides unless the strings are equal. -/
theorem isLE_compare_then (a b : String) (rest : Ordering) :
    ((compare a b).then rest).isLE = if a != b then decide (a ≤ b) else rest.isLE := by
  by_cases h : a = b
  · subst h
    rw [Std.ReflOrd.compare_self, bne_self_eq_false]
    rfl
  · have hne : compare a b ≠ .eq := fun heq => h (Std.LawfulEqOrd.eq_of_compare heq)
    rw [if_pos (by simpa using h), ← isLE_compare]
    cases hc : compare a b with
    | lt => rfl
    | eq => exact absurd hc hne
    | gt => rfl

theorem le_eq (a b : CaseResult) : a.le b = (compareKeys a b).isLE := by
  have hkeys : compareKeys a b = (compare a.family b.family).then
      ((compare a.symbol b.symbol).then (compare a.caseName b.caseName)) := rfl
  rw [hkeys, isLE_compare_then, isLE_compare_then, isLE_compare]
  rfl

theorem le_trans (a b c : CaseResult) (hab : a.le b) (hbc : b.le c) : a.le c := by
  rw [le_eq] at *
  exact Std.TransCmp.isLE_trans hab hbc

theorem le_total (a b : CaseResult) : a.le b || b.le a := by
  have hswap : compareKeys b a = (compareKeys a b).swap := Std.OrientedCmp.eq_swap
  rw [le_eq, le_eq, hswap]
  cases compareKeys a b <;> rfl

/-- Two results of which neither is behind the other are in the same place. -/
theorem key_eq_of_le {a b : CaseResult} (hab : a.le b) (hba : b.le a) : a.key = b.key := by
  rw [le_eq] at hab hba
  have heq : compareKeys a b = .eq := Std.OrientedCmp.isLE_antisymm hab hba
  obtain ⟨hfamily, hrest⟩ := compareLex_eq_eq.mp heq
  obtain ⟨hsymbol, hname⟩ := compareLex_eq_eq.mp hrest
  rw [key, Std.LawfulEqOrd.eq_of_compare hfamily, Std.LawfulEqOrd.eq_of_compare hsymbol,
    Std.LawfulEqOrd.eq_of_compare hname]
  rfl

/-- Results that are in places of their own come out in one order, whatever order they
were in. -/
theorem mergeSort_eq_of_perm {first second : List CaseResult} (h : first.Perm second)
    (hkeys : (first.map key).Nodup) : first.mergeSort le = second.mergeSort le := by
  have hsorted (results : List CaseResult) : (results.mergeSort le).Pairwise (le · ·) :=
    List.pairwise_mergeSort le_trans le_total results
  have hsame : (first.mergeSort le).Perm (second.mergeSort le) :=
    (List.mergeSort_perm first le).trans (h.trans (List.mergeSort_perm second le).symm)
  refine List.Perm.eq_of_pairwise ?_ (hsorted first) (hsorted second) hsame
  intro a b ha hb hab hba
  have hfirst : a ∈ first := List.mem_mergeSort.mp ha
  have hsecond : b ∈ first := h.mem_iff.mpr (List.mem_mergeSort.mp hb)
  exact List.inj_on_of_nodup_map hkeys hfirst hsecond (key_eq_of_le hab hba)

end CaseResult

namespace CommandLine

/-- The cases of some sets, each with its family. -/
def casesOf (sets : List FixtureSet) : List (String × Fixture) :=
  sets.flatMap fun set => set.cases.map fun fixture => (set.family, fixture)

/-- What tells cases apart: the family, the function and the name. -/
def caseKey (entry : String × Fixture) : String × String × String :=
  (entry.1, entry.2.function, entry.2.name)

/-- Every case is run by itself: its result depends on nothing but the case and its
family. -/
theorem flatMap_run (sets : List FixtureSet) :
    sets.flatMap FixtureSet.run =
      (casesOf sets).map fun entry => (entry.2.verify entry.1).result := by
  simp only [casesOf, List.map_flatMap, List.map_map]
  rfl

/-- Sets that hold the same cases, however these are arranged, have the same report, and
with another timestamp the same digest. It lists the result of every case, in the order
of families, functions and names; whether the run is logged, and how, makes no
difference. -/
theorem reportOf_arrangement {first second : List FixtureSet}
    (h : (casesOf first).Perm (casesOf second)) (hkeys : ((casesOf first).map caseKey).Nodup)
    (readings again : Readings) (emitter other : LogEmitter) :
    let one := (verifySets readings emitter first).results
    let two := (verifySets again other second).results
    (one = first.flatMap FixtureSet.run ∧ two = second.flatMap FixtureSet.run) ∧
      (∀ timestamp,
        let report := reportOf timestamp one
        let rearranged := reportOf timestamp two
        report.summary.results.Perm one ∧
          report.summary.results.Pairwise (fun a b => a.le b) ∧
          report.summary.results = rearranged.summary.results ∧
          report.markdown = rearranged.markdown ∧ report.text = rearranged.text) ∧
      ∀ timestamp later,
        (reportOf timestamp one).resultsDigest = (reportOf later two).resultsDigest := by
  intro one two
  have hone : one = first.flatMap FixtureSet.run :=
    congrArg Verified.results (verifySets_eq readings emitter first)
  have htwo : two = second.flatMap FixtureSet.run :=
    congrArg Verified.results (verifySets_eq again other second)
  have hsame : one.mergeSort CaseResult.le = two.mergeSort CaseResult.le := by
    rw [hone, htwo, flatMap_run, flatMap_run]
    refine CaseResult.mergeSort_eq_of_perm (h.map _) ?_
    -- a result is placed by what tells its case apart
    rw [List.map_map]
    exact hkeys
  have hreport (timestamp : String) : reportOf timestamp one = reportOf timestamp two := by
    rw [reportOf, reportOf, hsame]
  refine ⟨⟨hone, htwo⟩, fun timestamp => ?_, fun timestamp later => ?_⟩
  · rw [← hreport timestamp]
    exact ⟨List.mergeSort_perm one _,
      List.pairwise_mergeSort CaseResult.le_trans CaseResult.le_total one, rfl, rfl, rfl⟩
  · rw [hreport timestamp]
    rfl

/-- Two cases in one set and, the other way round, in two sets of the same family. -/
theorem reportOf_arrangement_split :
    let shorter : Fixture :=
      { name := "a", function := "sprintf", clause := "",
        inputs := .object [("format", .string "%d")], expected := "" }
    let longer : Fixture := { shorter with name := "b", function := "snprintf" }
    let set (cases : List Fixture) : FixtureSet :=
      { version := "v1", family := "stdio/printf", capturedAt := "", cases := cases }
    let results (sets : List FixtureSet) : List CaseResult :=
      (verifySets (.still ⟨"T", 0⟩) { runId := "r", campaign := "c" } sets).results
    ((casesOf [set [shorter, longer]]).map caseKey).Nodup ∧
      (reportOf "T" (results [set [shorter, longer]])).text =
        (reportOf "T" (results [set [longer], set [shorter]])).text ∧
      (reportOf "T" (results [set [shorter, longer]])).resultsDigest =
        (reportOf "U" (results [set [longer], set [shorter]])).resultsDigest := by
  intro shorter longer set results
  have hcases : (casesOf [set [shorter, longer]]).Perm (casesOf [set [longer], set [shorter]]) :=
    List.Perm.swap _ _ _
  have hkeys : ((casesOf [set [shorter, longer]]).map caseKey).Nodup := by decide
  obtain ⟨-, hreports, hdigests⟩ := reportOf_arrangement hcases hkeys (.still ⟨"T", 0⟩)
    (.still ⟨"T", 0⟩) { runId := "r", campaign := "c" } { runId := "r", campaign := "c" }
  exact ⟨hkeys, (hreports "T").2.2.2.2, hdigests "T" "U"⟩

end CommandLine

end FormatScan
