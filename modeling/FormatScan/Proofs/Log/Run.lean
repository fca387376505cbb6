import FormatScan.Conformance.CommandLine
import FormatScan.Proofs.Log.Emission
import FormatScan.Proofs.Log.Line
import FormatScan.Proofs.Text.Delimited

/-!
# The log of a run

A run has its events: its start, the start of every set, every case, and its end. What
the runner emits is exactly these entries, so the log holds those of them that are not
too low, numbered from one on without a gap. Every such entry is in order by itself and
its trace identifier has three parts, so the log is checked without a fault, and its
lines are read as these entries.
-/

namespace FormatScan

open Json

/-- The entry for the start or the end of a run. -/
def runEvent (runId : String) (clock : Clock) (event : String) : LogEntry :=
  { timestamp := clock.timestamp, traceId := "", level := .info, event := event,
    runId := some runId }

/-- The entry for the start of a set. -/
def FixtureSet.startEvent (set : FixtureSet) (runId : String) (clock : Clock) : LogEntry :=
  { timestamp := clock.timestamp, traceId := "", level := .debug, event := "set_start",
    runId := some runId
    details := some (.object [("cases", .ofNat set.cases.length), ("family", .string set.family),
      ("version", .string set.version)]) }

/-- The entry for a case: an error when it cannot be carried out, a warning when its
line differs from the expected one, and information when it passes. -/
def Fixture.event (fixture : Fixture) (family runId : String) (clock : Clock) : LogEntry :=
  let entry (level : LogLevel) (outcome : CaseOutcome) (details : Option Json) : LogEntry :=
    { timestamp := clock.timestamp, traceId := "", level := level, event := "case_result",
      runId := some runId, family := some family, symbol := some fixture.function,
      caseName := some fixture.name, outcome := some outcome, latency := some clock.latency,
      details := details }
  match Execution.run fixture.function fixture.inputs with
  | .error e => entry .error .error (some (.object [("error", .string e.message)]))
  | .ok line =>
    if line = fixture.expected then entry .info .pass none
    else entry .warn .fail
      (some (.object [("actual", .string line), ("expected", .string fixture.expected)]))

/-- The entries for some cases. -/
def caseEvents (family runId : String) : Readings → List Fixture → List LogEntry
  | _, [] => []
  | readings, fixture :: rest =>
    fixture.event family runId (readings.clock 0) ::
      caseEvents family runId (readings.behind 1) rest

/-- The entries for a set. -/
def FixtureSet.events (set : FixtureSet) (runId : String) (readings : Readings) : List LogEntry :=
  set.startEvent runId (readings.clock 0) ::
    caseEvents set.family runId (readings.behind 1) set.cases

/-- The entries for some sets. -/
def setEvents (runId : String) : Readings → List FixtureSet → List LogEntry
  | _, [] => []
  | readings, set :: rest =>
    set.events runId readings ++ setEvents runId (readings.behind (set.cases.length + 1)) rest

/-- The entries for a whole run. -/
def runEvents (runId : String) (readings : Readings) (sets : List FixtureSet) : List LogEntry :=
  runEvent runId (readings.clock 0) "run_start" ::
    setEvents runId (readings.behind 1) sets ++
    [runEvent runId (readings.clock (CommandLine.eventCount sets + 1)) "run_end"]

namespace FixtureSet

/-- What the runner emits for a case is the entry for it. -/
theorem caseEntry_verify (fixture : Fixture) (family : String) (emitter : LogEmitter)
    (clock : Clock) :
    caseEntry (fixture.verify family) emitter clock = fixture.event family emitter.runId clock := by
  unfold caseEntry Fixture.verify Fixture.event
  cases Execution.run fixture.function fixture.inputs with
  | error e => rfl
  | ok line =>
    by_cases hpass : line = fixture.expected
    · simp [hpass, severity, caseDetails, LogEmitter.entry]
    · simp [hpass, severity, caseDetails, LogEmitter.entry]

/-- The runner emits the entries for the cases, in their order. -/
theorem logCases_verify (family : String) (readings : Readings) (emitter : LogEmitter)
    (cases : List Fixture) :
    logCases readings emitter (cases.map fun fixture => fixture.verify family) =
      emitter.emitAll (caseEvents family emitter.runId readings cases) := by
  induction cases generalizing readings emitter with
  | nil => rfl
  | cons fixture cases ih =>
    rw [List.map_cons, logCases, ih, caseEntry_verify, (emitter.emit_settings _).1, caseEvents,
      LogEmitter.emitAll_cons]

/-- A set has the same results with a log as without, and leaves its entries there. -/
theorem runTimed_eq (set : FixtureSet) (readings : Readings) (emitter : LogEmitter) :
    set.runTimed readings emitter =
      (set.run, emitter.emitAll (set.events emitter.runId readings)) := by
  unfold runTimed run events
  rw [LogEmitter.emitAll_cons]
  dsimp only
  rw [List.map_map, logCases_verify, (emitter.emit_settings _).1]
  rfl

end FixtureSet

namespace CommandLine

/-- So do several sets, one after the other. -/
theorem runSets_eq (readings : Readings) (emitter : LogEmitter) (sets : List FixtureSet) :
    runSets readings emitter sets =
      ⟨sets.flatMap FixtureSet.run, emitter.emitAll (setEvents emitter.runId readings sets)⟩ := by
  induction sets generalizing readings emitter with
  | nil => rfl
  | cons set sets ih =>
    rw [runSets, FixtureSet.runTimed_eq]
    dsimp only
    rw [ih, (emitter.emitAll_settings _).1, setEvents, LogEmitter.emitAll_append,
      List.flatMap_cons]

/-- So does a whole run. -/
theorem verifySets_eq (readings : Readings) (emitter : LogEmitter) (sets : List FixtureSet) :
    verifySets readings emitter sets =
      ⟨sets.flatMap FixtureSet.run, emitter.emitAll (runEvents emitter.runId readings sets)⟩ := by
  have hmark (emitter : LogEmitter) (clock : Clock) (event : String) :
      emitter.emitEvent clock.timestamp .info event =
        emitter.emitAll [runEvent emitter.runId clock event] := rfl
  rw [verifySets, runSets_eq]
  dsimp only
  simp only [hmark, LogEmitter.emitAll_settings, ← LogEmitter.emitAll_append]
  rfl

end CommandLine

/-- An entry without a number that is in order otherwise. -/
structure LogEntry.Ready (runId : String) (entry : LogEntry) : Prop where
  /-- It has no trace identifier. -/
  traceId : entry.traceId = ""
  /-- It belongs to the run. -/
  run : entry.runId = some runId
  /-- An outcome has a case. -/
  caseName : entry.outcome.isSome → entry.caseName.isSome
  /-- The details have no doubles and no deep containers. -/
  plain : entry.Plain
  /-- The details have their keys in order. -/
  ordered : entry.Ordered
  /-- The details are not `null`. -/
  settled : entry.details.bind nonNull = entry.details

/-- An entry with a number of a run. -/
def LogEntry.numbered (entry : LogEntry) (runId campaign : String) (number : Nat) : LogEntry :=
  { entry with traceId := runId ++ "::" ++ campaign ++ "::" ++ Text.padded 3 number }

namespace LogEmitter

/-- Entries without a number get the numbers in turn, and those that are dropped take
none. -/
theorem written_of_ready {emitter : LogEmitter} {entries : List LogEntry}
    (h : ∀ entry ∈ entries, entry.Ready emitter.runId) :
    emitter.written entries =
      ((entries.filter (·.reaches emitter.least)).zipIdx (emitter.sequence + 1)).map
        fun entry => entry.1.numbered emitter.runId emitter.campaign entry.2 := by
  induction entries generalizing emitter with
  | nil => rfl
  | cons entry entries ih =>
    obtain ⟨hentry, hentries⟩ := List.forall_mem_cons.mp h
    rw [written]
    cases hreaches : entry.reaches emitter.least with
    | false =>
      rw [if_neg Bool.false_ne_true, ih hentries, List.filter_cons_of_neg (by simp [hreaches])]
    | true =>
      have hempty : entry.traceId.isEmpty = true := by rw [hentry.traceId]; rfl
      have hcomplete : emitter.complete entry =
          entry.numbered emitter.runId emitter.campaign (emitter.sequence + 1) := by
        rw [complete, LogEntry.numbered, hempty, hentry.run]
        rfl
      have hsequence : (emitter.emit entry).sequence = emitter.sequence + 1 := by
        rw [emit_of_reaches hreaches, hempty]
        rfl
      obtain ⟨hrun, hcampaign, hleast⟩ := emitter.emit_settings entry
      rw [if_pos rfl, hcomplete, ih (hrun ▸ hentries), hrun, hcampaign, hleast, hsequence,
        List.filter_cons, hreaches, if_pos rfl, List.zipIdx_cons, List.map_cons]

end LogEmitter

namespace LogEntry

/-- An entry without details is in order. -/
theorem ready_of_none {runId : String} {entry : LogEntry} (ht : entry.traceId = "")
    (hr : entry.runId = some runId) (hc : entry.outcome.isSome → entry.caseName.isSome)
    (hd : entry.details = none) : entry.Ready runId where
  traceId := ht
  run := hr
  caseName := hc
  plain := fun details hdetails => by rw [hd] at hdetails; cases hdetails
  ordered := fun details hdetails => by rw [hd] at hdetails; cases hdetails
  settled := by rw [hd, Option.bind_none]

/-- An entry with a flat object for its details is in order. -/
theorem ready_of_object {runId : String} {entry : LogEntry} {members : List (String × Json)}
    (ht : entry.traceId = "") (hr : entry.runId = some runId)
    (hc : entry.outcome.isSome → entry.caseName.isSome)
    (hd : entry.details = some (.object members)) (hk : (members.map (·.1)).Pairwise (· < ·))
    (hm : ∀ member ∈ members, member.2.Faithful) (hdepth : membersDepth members = 0) :
    entry.Ready runId where
  traceId := ht
  run := hr
  caseName := hc
  plain := by
    intro details hdetails
    rw [hd] at hdetails
    cases hdetails
    refine ⟨.object rfl fun member hmember => (hm member hmember).1, ?_⟩
    rw [depth, hdepth]
    decide
  ordered := by
    intro details hdetails
    rw [hd] at hdetails
    cases hdetails
    exact .object (List.pairwise_map.mp hk) fun member hmember => (hm member hmember).2.1
  settled := by rw [hd]; rfl

end LogEntry

/-- The entries for the start and the end of a run are in order. -/
theorem ready_runEvent (runId : String) (clock : Clock) (event : String) :
    (runEvent runId clock event).Ready runId :=
  LogEntry.ready_of_none rfl rfl (fun h => by cases h) rfl

/-- The entry for the start of a set is in order. -/
theorem FixtureSet.ready_startEvent (set : FixtureSet) (runId : String) (clock : Clock) :
    (set.startEvent runId clock).Ready runId := by
  have hnames : ["cases", "family", "version"].Pairwise (· < ·) := by decide
  refine LogEntry.ready_of_object rfl rfl (fun h => by cases h) rfl hnames ?_ rfl
  refine List.forall_mem_cons.mpr ⟨faithful_integer (.ofNat _), ?_⟩
  simp only [List.forall_mem_cons, faithful_string]
  exact ⟨trivial, trivial, List.forall_mem_nil _⟩

/-- The entry for a case is in order. -/
theorem Fixture.ready_event (fixture : Fixture) (family runId : String) (clock : Clock) :
    (fixture.event family runId clock).Ready runId := by
  unfold Fixture.event
  split
  case h_1 e _ =>
    have hnames : ["error"].Pairwise (· < ·) := by decide
    refine LogEntry.ready_of_object rfl rfl (fun _ => rfl) rfl hnames ?_ rfl
    exact List.forall_mem_cons.mpr ⟨faithful_string e.message, List.forall_mem_nil _⟩
  case h_2 line _ =>
    split
    · exact LogEntry.ready_of_none rfl rfl (fun _ => rfl) rfl
    · have hnames : ["actual", "expected"].Pairwise (· < ·) := by decide
      refine LogEntry.ready_of_object rfl rfl (fun _ => rfl) rfl hnames ?_ rfl
      refine List.forall_mem_cons.mpr ⟨faithful_string line, ?_⟩
      exact List.forall_mem_cons.mpr ⟨faithful_string fixture.expected, List.forall_mem_nil _⟩

/-- The entries for some cases are in order. -/
theorem ready_caseEvents (family runId : String) (readings : Readings) (cases : List Fixture) :
    ∀ entry ∈ caseEvents family runId readings cases, entry.Ready runId := by
  induction cases generalizing readings with
  | nil => exact List.forall_mem_nil _
  | cons fixture cases ih =>
    exact List.forall_mem_cons.mpr ⟨fixture.ready_event family runId _, ih (readings.behind 1)⟩

/-- The entries for some sets are in order. -/
theorem ready_setEvents (runId : String) (readings : Readings) (sets : List FixtureSet) :
    ∀ entry ∈ setEvents runId readings sets, entry.Ready runId := by
  induction sets generalizing readings with
  | nil => exact List.forall_mem_nil _
  | cons set sets ih =>
    refine List.forall_mem_append.mpr ⟨?_, ih _⟩
    exact List.forall_mem_cons.mpr ⟨set.ready_startEvent runId _, ready_caseEvents _ _ _ _⟩

/-- The entries for a run are in order. -/
theorem ready_runEvents (runId : String) (readings : Readings) (sets : List FixtureSet) :
    ∀ entry ∈ runEvents runId readings sets, entry.Ready runId := by
  refine List.forall_mem_append.mpr ⟨List.forall_mem_cons.mpr ⟨?_, ?_⟩, ?_⟩
  · exact ready_runEvent runId _ _
  · exact ready_setEvents runId _ sets
  · exact List.forall_mem_cons.mpr ⟨ready_runEvent runId _ _, List.forall_mem_nil _⟩

/-- The text of an object stands in braces. -/
theorem Json.exists_braces (layout : Layout) (depth : Nat) (members : List (String × Json)) :
    ∃ inner, printAt layout depth (.object members) = '{' :: inner ++ ['}'] := by
  cases members with
  | nil => exact ⟨[], rfl⟩
  | cons member members => exact ⟨_, by rw [printAt]; rfl⟩

/-- A text that begins and ends with other characters than blanks stays as it is. -/
theorem Text.trim_eq {text : String} {first last : Char} {inner : List Char}
    (h : text.toList = first :: inner ++ [last]) (hf : isBlank first = false)
    (hl : isBlank last = false) : trim text = text := by
  have hfront : text.toList.dropWhile isBlank = text.toList := by
    rw [h, List.cons_append, List.dropWhile_cons_of_neg (by simp [hf])]
  have hback : text.toList.reverse.dropWhile isBlank = text.toList.reverse := by
    rw [h, List.reverse_append, List.reverse_singleton, List.singleton_append,
      List.dropWhile_cons_of_neg (by simp [hl])]
  rw [trim, hfront, hback, List.reverse_reverse, String.ofList_toList]

/-- A number is padded with digits. -/
theorem Text.colon_not_mem_padded (width n : Nat) : ':' ∉ (padded width n).toList := fun hcolon =>
  absurd ((padded_spells width n).1 ':' hcolon) (by decide)

namespace LogEntry

/-- A number completes an entry: its line is accepted and read as this entry. -/
theorem Ready.checkLine_numbered {runId campaign : String} {entry : LogEntry}
    (h : entry.Ready runId) (hr : ':' ∉ runId.toList) (hc : ':' ∉ campaign.toList) (number : Nat) :
    LogValidation.checkLine (entry.numbered runId campaign number).line =
      .ok (entry.numbered runId campaign number) := by
  have hparts : LogValidation.Parts (entry.numbered runId campaign number).traceId.toList
      [runId.toList, campaign.toList, (Text.padded 3 number).toList] := by
    have hnumber := LogValidation.noPair_of_not_mem (Text.colon_not_mem_padded 3 number)
    have htext := LogValidation.Parts.next (LogValidation.noPair_colon hr)
      (LogValidation.Parts.next (LogValidation.noPair_colon hc) (.last hnumber))
    simpa [numbered] using htext
  have hfaults : (entry.numbered runId campaign number).faults = [] :=
    faults_eq_nil_iff.mpr ⟨⟨_, _, _, hparts⟩, h.caseName⟩
  have hplain : (entry.numbered runId campaign number).Plain := h.plain
  have hordered : (entry.numbered runId campaign number).Ordered := h.ordered
  have hsettled : (entry.numbered runId campaign number).settled =
      entry.numbered runId campaign number := by
    rw [LogEntry.settled,
      show (entry.numbered runId campaign number).details = entry.details from rfl, h.settled]
    rfl
  rw [LogValidation.checkLine_line hplain hordered, hfaults, hsettled]
  rfl

end LogEntry

namespace LogValidation

/-- The line of an entry is looked at as it is. -/
theorem trim_line (entry : LogEntry) : Text.trim entry.line = entry.line ∧ entry.line ≠ "" := by
  obtain ⟨inner, hinner⟩ := exists_braces .compact 0 entry.members
  have hline : entry.line.toList = '{' :: inner ++ ['}'] := by
    rw [LogEntry.line, compact, String.toList_ofList, LogEntry.toJson_eq, hinner]
  refine ⟨Text.trim_eq hline (by decide) (by decide), fun hempty => ?_⟩
  rw [hempty] at hline
  cases hline

/-- Lines of entries that are accepted are counted, without a fault. -/
theorem checkLines_of_ok {entries : List LogEntry}
    (h : ∀ entry ∈ entries, ∃ read, checkLine entry.line = .ok read) (number : Nat) :
    checkLines number (entries.map LogEntry.line) = ⟨entries.length, []⟩ := by
  induction entries generalizing number with
  | nil => rfl
  | cons entry entries ih =>
    obtain ⟨⟨read, hread⟩, hentries⟩ := List.forall_mem_cons.mp h
    obtain ⟨htrim, hne⟩ := trim_line entry
    have hempty : entry.line.isEmpty = false := by simpa using hne
    rw [List.map_cons, checkLines, htrim, hempty, if_neg Bool.false_ne_true, hread, ih hentries]
    rfl

end LogValidation

namespace CommandLine

/-- The entries that the log of a run holds: those that are not too low, with the numbers
from 1 on. -/
def runLog (runId campaign : String) (least : LogLevel) (readings : Readings)
    (sets : List FixtureSet) : List LogEntry :=
  (((runEvents runId readings sets).filter (·.reaches least)).zipIdx 1).map
    fun event => event.1.numbered runId campaign event.2

section

variable {runId campaign : String} {least : LogLevel} {readings : Readings}
  {sets : List FixtureSet}

/-- An entry of the log has the number of its line and belongs to the run. -/
theorem getElem?_runLog {k : Nat} {entry : LogEntry}
    (h : (runLog runId campaign least readings sets)[k]? = some entry) :
    entry.traceId = runId ++ "::" ++ campaign ++ "::" ++ Text.padded 3 (k + 1) ∧
      entry.runId = some runId := by
  rw [runLog, List.getElem?_map, List.getElem?_zipIdx, Option.map_map] at h
  obtain ⟨event, hevent, rfl⟩ := Option.map_eq_some_iff.mp h
  have hmem := (List.mem_filter.mp (List.mem_of_getElem? hevent)).1
  refine ⟨?_, (ready_runEvents runId readings sets event hmem).run⟩
  rw [Nat.add_comm k 1]
  rfl

/-- The line of every entry of the log is read as that entry. -/
theorem checkLine_runLog (hr : ':' ∉ runId.toList) (hc : ':' ∉ campaign.toList) :
    ∀ entry ∈ runLog runId campaign least readings sets,
      LogValidation.checkLine entry.line = .ok entry := by
  intro entry hentry
  obtain ⟨⟨event, number⟩, hevent, rfl⟩ := List.mem_map.mp hentry
  have hmem := (List.mem_filter.mp (List.fst_mem_of_mem_zipIdx hevent)).1
  exact (ready_runEvents runId readings sets event hmem).checkLine_numbered hr hc number

variable (runId campaign least readings sets)

/-- An emitter that starts with the events of a run writes these entries. -/
theorem written_runEvents :
    ({ runId := runId, campaign := campaign, least := least } : LogEmitter).written
      (runEvents runId readings sets) = runLog runId campaign least readings sets :=
  LogEmitter.written_of_ready (ready_runEvents runId readings sets)

/-- And it counts them. -/
theorem emitted_runEvents :
    (({ runId := runId, campaign := campaign, least := least } : LogEmitter).emitAll
      (runEvents runId readings sets)).emitted =
        (runLog runId campaign least readings sets).length := by
  have hempty : ∀ entry ∈ runEvents runId readings sets,
      (entry.reaches least && entry.traceId.isEmpty) = entry.reaches least := by
    intro entry hentry
    rw [(ready_runEvents runId readings sets entry hentry).traceId]
    exact Bool.and_true _
  rw [LogEmitter.emitted_emitAll, ← written_runEvents, LogEmitter.length_written,
    List.countP_congr fun entry hentry => by rw [hempty entry hentry]]
  exact Nat.zero_add _

end

/-- A run has the same results with a log as without. Its log consists of whole lines
and is checked without a fault; the lines are counted, and they are read as the events of
the run that are not too low, in their order, each with its number and the run. -/
theorem verifySets_log {runId campaign : String} (hr : ':' ∉ runId.toList)
    (hc : ':' ∉ campaign.toList) (least : LogLevel) (readings : Readings)
    (sets : List FixtureSet) :
    let emitter : LogEmitter := { runId := runId, campaign := campaign, least := least }
    let verified := verifySets readings emitter sets
    let entries := runLog runId campaign least readings sets
    let lines := Text.linesOf verified.log.text
    verified.results = sets.flatMap FixtureSet.run ∧
      (∀ set readings emitter, (FixtureSet.runTimed set readings emitter).1 = set.run) ∧
      verified.log.text = String.join (lines.map fun line => line ++ "\n") ∧
      LogValidation.check verified.log.text = ⟨verified.log.emitted, []⟩ ∧
      lines.map LogValidation.checkLine = entries.map .ok ∧
      ∀ k entry, entries[k]? = some entry →
        entry.traceId = runId ++ "::" ++ campaign ++ "::" ++ Text.padded 3 (k + 1) ∧
          entry.runId = some runId := by
  intro emitter verified entries lines
  have hresults : verified.results = sets.flatMap FixtureSet.run :=
    congrArg Verified.results (verifySets_eq readings emitter sets)
  have hlog : verified.log = emitter.emitAll (runEvents runId readings sets) :=
    congrArg Verified.log (verifySets_eq readings emitter sets)
  have hwritten : emitter.written (runEvents runId readings sets) = entries :=
    written_runEvents runId campaign least readings sets
  have hlines : lines = entries.map LogEntry.line := by
    rw [← hwritten, ← LogEmitter.linesOf_text rfl, ← hlog]
  have hemitted : verified.log.emitted = entries.length := by
    rw [hlog]
    exact emitted_runEvents runId campaign least readings sets
  have haccepted : ∀ entry ∈ entries, LogValidation.checkLine entry.line = .ok entry :=
    checkLine_runLog hr hc
  refine ⟨hresults, fun set readings emitter => by rw [set.runTimed_eq], ?_, ?_, ?_,
    fun k entry => getElem?_runLog⟩
  · have hall := emitter.lines_emitAll (runEvents runId readings sets)
    rw [← hlog, hwritten, ← hlines] at hall
    rw [LogEmitter.text, hall]
    rfl
  · rw [LogValidation.check, show Text.linesOf verified.log.text = lines from rfl, hlines, hemitted]
    exact LogValidation.checkLines_of_ok (fun entry hentry => ⟨entry, haccepted entry hentry⟩) 1
  · rw [hlines, List.map_map]
    exact List.map_congr_left haccepted

/-- A run over one case that no function carries out has four entries, and the second
least level drops none of them. -/
theorem verifySets_log_unknown_function :
    let fixture : Fixture :=
      { name := "x", function := "printf_s", clause := "", inputs := .object [], expected := "" }
    let set : FixtureSet :=
      { version := "v1", family := "stdio/printf", capturedAt := "", cases := [fixture] }
    let emitter : LogEmitter := { runId := "run-1", campaign := "smoke", least := .debug }
    let log := (verifySets (.still ⟨"T", 0⟩) emitter [set]).log
    LogValidation.check log.text = ⟨4, []⟩ := by
  intro fixture set emitter log
  have hrun : ':' ∉ "run-1".toList := by decide
  have hcampaign : ':' ∉ "smoke".toList := by decide
  obtain ⟨-, -, -, hchecked, -⟩ := verifySets_log hrun hcampaign .debug (.still ⟨"T", 0⟩) [set]
  have hfour : log.emitted = 4 := by rfl
  rw [← hfour]
  exact hchecked

end CommandLine

end FormatScan
