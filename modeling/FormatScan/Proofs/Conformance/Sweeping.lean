import FormatScan.Conformance.Sweep
import FormatScan.Proofs.Format.Truncation
import Mathlib.Algebra.Ring.Nat

/-!
# Sweeps that find nothing

A sweep holds every call with a bound against the call without one. The formatter never
gives it anything to report: at every size the result and the counts are those of the
unbounded call, the bytes behind the buffer stay as they were, and the buffer holds the
beginning of the output with a zero byte behind it. So a sweep is nothing but a count of
cases and calls, and where it stops early, that is for a case whose inputs cannot be read.
-/

namespace FormatScan.Sweep

/-! ## One call -/

theorem sameResult_self (result : Except FormatError Nat) : sameResult result result = true := by
  cases result <;> simp [sameResult]

/-- A call into a buffer neither grows nor shrinks it. -/
theorem length_printBounded (buffer text : Bytes) (args : List FormatArg) :
    (Format.printBounded buffer text args).sink.bytes.length = buffer.length := by
  rw [Format.printBounded_bytes]
  split
  case isTrue h => rw [h]
  case isFalse h =>
    have hpos : 0 < buffer.length := List.length_pos_iff.mpr h
    simp only [List.length_append, List.length_take, List.length_cons, List.length_drop]
    omega

/-- A buffer of at least one byte holds, after a call, as much of the whole output as leaves
one byte free, and a zero byte behind that. -/
theorem exists_printBounded_bytes {buffer : Bytes} (h : 0 < buffer.length) (text : Bytes)
    (args : List FormatArg) :
    ∃ rest, (Format.printBounded buffer text args).sink.bytes =
      (Format.printAll text args).sink.bytes.take
        (min (Format.printAll text args).sink.bytes.length (buffer.length - 1)) ++ 0 :: rest := by
  rw [Format.printBounded_bytes, Format.printAll_bytes, if_neg (List.ne_nil_of_length_pos h)]
  exact ⟨_, rfl⟩

/-- A call into a buffer of guard bytes leaves every byte behind the buffer alone. -/
theorem drop_printBounded (capacity : Nat) (text : Bytes) (args : List FormatArg) :
    ((Format.printBounded (List.replicate capacity guardByte) text args).sink.bytes ++
      List.replicate guardSize guardByte).drop capacity = List.replicate guardSize guardByte := by
  have hlength := length_printBounded (List.replicate capacity guardByte) text args
  rw [List.length_replicate] at hlength
  exact List.drop_left' hlength

/-- A call into a buffer of guard bytes keeps the beginning of the output, with a zero byte
behind it. -/
theorem kept_printBounded {capacity : Nat} (h : 0 < capacity) (text : Bytes)
    (args : List FormatArg) :
    let full := (Format.printAll text args).sink.bytes
    let kept := min full.length (capacity - 1)
    let storage := (Format.printBounded (List.replicate capacity guardByte) text args).sink.bytes ++
      List.replicate guardSize guardByte
    storage.take kept = full.take kept ∧ storage[kept]? = some 0 := by
  intro full kept storage
  have hbuffer : (List.replicate capacity guardByte).length = capacity := List.length_replicate
  obtain ⟨rest, hbytes⟩ := exists_printBounded_bytes (hbuffer.symm ▸ h) text args
  rw [hbuffer] at hbytes
  have hstorage : storage =
      full.take kept ++ 0 :: (rest ++ List.replicate guardSize guardByte) := by
    dsimp only [storage]
    rw [hbytes, List.append_assoc]
    rfl
  have hfront : (full.take kept).length = kept := by
    rw [List.length_take]
    omega
  rw [hstorage]
  refine ⟨List.take_left' hfront, ?_⟩
  rw [List.getElem?_append_right (by omega), hfront, Nat.sub_self]
  rfl

/-- At no size is there a fault. -/
theorem faultsAt_eq_nil (text : Bytes) (specs : List ArgSpec) (capacity : Nat) :
    faultsAt text specs (Format.printAll text (specs.map ArgSpec.arg)) capacity = [] := by
  dsimp only [faultsAt]
  generalize specs.map ArgSpec.arg = args
  -- the result and the operands of a call do not depend on where the output goes
  have hresult : (Format.printBounded (List.replicate capacity guardByte) text args).result =
      (Format.printAll text args).result := rfl
  have hargs : (Format.printBounded (List.replicate capacity guardByte) text args).args =
      (Format.printAll text args).args := rfl
  have hoverrun :
      (((Format.printBounded (List.replicate capacity guardByte) text args).sink.bytes ++
        List.replicate guardSize guardByte).drop capacity).any (· != guardByte) = false := by
    rw [drop_printBounded]
    rfl
  rw [hresult, hargs, sameResult_self, Bool.not_true, if_neg Bool.false_ne_true, hoverrun,
    if_neg Bool.false_ne_true]
  cases hfull : (Format.printAll text args).result with
  | error error => rfl
  | ok length =>
    by_cases hzero : capacity = 0
    · simp [hzero]
    · obtain ⟨hkept, hterminated⟩ := kept_printBounded (Nat.pos_of_ne_zero hzero) text args
      simp [hzero, hkept, hterminated]

/-! ## One case and a set of cases -/

/-- What a formatting call puts out without a bound, up to its failure if it fails. -/
def output (text : Bytes) (specs : List ArgSpec) : Bytes :=
  (Format.printAll text (specs.map ArgSpec.arg)).sink.bytes

/-- The outcome of a sweep over some formats with their operands in which nothing is found:
each of them is called once for every size from nothing to two bytes more than its output. -/
def clean (inputs : List FormatInputs) : BoundsReport :=
  { cases := inputs.length
    calls := (inputs.map fun call => (output (bytesOf call.format) call.args).length + 3).sum
    violations := [] }

theorem format_eq (caseName : String) (text : Bytes) (specs : List ArgSpec) :
    format caseName text specs =
      { cases := 1, calls := (output text specs).length + 3, violations := [] } := by
  dsimp only [format]
  rw [List.flatMap_eq_nil_iff.mpr fun capacity _ => by rw [faultsAt_eq_nil, List.map_nil]]
  rfl

theorem absorb_clean (report : BoundsReport) (first rest : List FormatInputs) :
    (report.absorb (clean first)).absorb (clean rest) = report.absorb (clean (first ++ rest)) := by
  simp only [BoundsReport.absorb, clean, List.append_nil, List.length_append, List.map_append,
    List.sum_append, Nat.add_assoc]

/-- A case whose inputs can be read is counted with its calls, and nothing is found. -/
theorem fixture_eq {next : Fixture} {call : FormatInputs}
    (h : FormatInputs.ofJson next.inputs = .ok call) : fixture next = .ok (clean [call]) := by
  rw [fixture, h]
  exact congrArg Except.ok (format_eq _ _ _)

/-- A sweep over cases that can be read adds to an earlier sweep one case for every
formatting case and the calls of each, and nothing that was found. -/
theorem fixtures_eq {inputs : Fixture → FormatInputs} {cases : List Fixture}
    (h : ∀ next ∈ cases, isFormatCase next = true →
      FormatInputs.ofJson next.inputs = .ok (inputs next)) (report : BoundsReport) :
    fixtures report cases =
      .ok (report.absorb (clean ((cases.filter isFormatCase).map inputs))) := by
  induction cases generalizing report with
  | nil => simp [fixtures, BoundsReport.absorb, clean]
  | cons next rest ih =>
    have hrest := ih fun other hother => h other (List.mem_cons_of_mem next hother)
    rw [fixtures]
    by_cases hformat : isFormatCase next = true
    · have hread := h next List.mem_cons_self hformat
      rw [if_pos hformat, fixture_eq hread, List.filter_cons_of_pos hformat]
      dsimp only
      rw [hrest, absorb_clean]
      rfl
    · rw [if_neg hformat, hrest, List.filter_cons_of_neg hformat]

/-- A sweep over cases fails only on a formatting case whose inputs cannot be read. -/
theorem exists_unreadable {cases : List Fixture} {report : BoundsReport} {e : ConformanceError}
    (h : fixtures report cases = .error e) :
    ∃ next ∈ cases, isFormatCase next = true ∧
      ∃ reason, FormatInputs.ofJson next.inputs = .error reason ∧ e = .json reason := by
  induction cases generalizing report with
  | nil => cases h
  | cons next rest ih =>
    have hlater {swept : BoundsReport} (hrest : fixtures swept rest = .error e) :
        ∃ other ∈ next :: rest, isFormatCase other = true ∧
          ∃ reason, FormatInputs.ofJson other.inputs = .error reason ∧ e = .json reason := by
      obtain ⟨other, hmem, hother⟩ := ih hrest
      exact ⟨other, List.mem_cons_of_mem next hmem, hother⟩
    rw [fixtures] at h
    by_cases hformat : isFormatCase next = true
    · rw [if_pos hformat] at h
      cases hread : FormatInputs.ofJson next.inputs with
      | error reason =>
        rw [fixture, hread] at h
        cases h
        exact ⟨next, List.mem_cons_self, hformat, reason, hread, rfl⟩
      | ok call =>
        rw [fixture_eq hread] at h
        exact hlater h
    · rw [if_neg hformat] at h
      exact hlater h

/-- A sweep reports no fault, whatever the format, the operands and the name of the case:
it counts one case and a call for every size from nothing to two bytes more than the output,
which is cut short where the call fails. A sweep over a set in which the inputs of every
formatting case can be read counts these cases, and the calls of each, and finds nothing;
it fails only if the inputs of one of them cannot be read. -/
theorem finds_nothing :
    (∀ caseName text specs, format caseName text specs =
      { cases := 1, calls := (output text specs).length + 3, violations := [] }) ∧
    (∀ (cases : FixtureSet) (inputs : Fixture → FormatInputs),
      (∀ next ∈ cases.cases, isFormatCase next = true →
        FormatInputs.ofJson next.inputs = .ok (inputs next)) →
      ∃ report, set cases = .ok report ∧ report.isClean = true ∧
        report.cases = cases.cases.countP isFormatCase ∧
        report.calls = ((cases.cases.filter isFormatCase).map fun next =>
          (output (bytesOf (inputs next).format) (inputs next).args).length + 3).sum) ∧
    ∀ (cases : FixtureSet) (e : ConformanceError), set cases = .error e →
      ∃ next ∈ cases.cases, isFormatCase next = true ∧
        ∃ reason, FormatInputs.ofJson next.inputs = .error reason ∧ e = .json reason := by
  refine ⟨format_eq, fun cases inputs h => ?_, fun cases e h => exists_unreadable h⟩
  refine ⟨_, fixtures_eq h {}, rfl, ?_, ?_⟩
  · simp [BoundsReport.absorb, clean, List.countP_eq_length_filter]
  · simp [BoundsReport.absorb, clean, Function.comp_def]

/-- A set of three cases. The first puts out a zero byte, stores a count and puts out a
text, and then misses an operand; the second calls no formatter and has no inputs that could
be read; the third puts out the zeros of a width. -/
theorem finds_nothing_failing :
    let failing : Fixture :=
      { name := "a", function := "sprintf", clause := "", expected := "",
        inputs := .object [("format", .string "%c%n%5s%d"),
          ("args", .array [.object [("char", .ofNat 0)], .string "count",
            .object [("str", .null)]])] }
    let other : Fixture := { failing with function := "strtol", inputs := .null }
    let padded : Fixture :=
      { failing with name := "b", function := "snprintf",
                     inputs := .object [("format", .string "%05d"),
                       ("args", .array [.object [("int", .ofNat 42)]])] }
    let cases : FixtureSet :=
      { version := "v1", family := "stdio/printf", capturedAt := "",
        cases := [failing, other, padded] }
    ∃ report, set cases = .ok report ∧ report.isClean = true ∧ report.cases = 2 ∧
      report.calls = 18 := by
  intro failing other padded cases
  let first : FormatInputs := ⟨"%c%n%5s%d", [.char 0, .count, .text none], none⟩
  let second : FormatInputs := ⟨"%05d", [.int 42], none⟩
  have hfirst : FormatInputs.ofJson failing.inputs = .ok first := rfl
  have hsecond : FormatInputs.ofJson padded.inputs = .ok second := rfl
  have hreads : ∀ next ∈ cases.cases, isFormatCase next = true →
      FormatInputs.ofJson next.inputs = .ok (if next.name = "a" then first else second) := by
    intro next hmem hformat
    simp only [cases, List.mem_cons, List.not_mem_nil, or_false] at hmem
    obtain rfl | rfl | rfl := hmem
    · exact hfirst
    · cases hformat
    · exact hsecond
  obtain ⟨report, hset, hclean, hcases, hcalls⟩ := finds_nothing.2.1 cases _ hreads
  refine ⟨report, hset, hclean, hcases, hcalls.trans ?_⟩
  decide +kernel

end FormatScan.Sweep
