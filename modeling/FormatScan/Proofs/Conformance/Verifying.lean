import FormatScan.Conformance.CommandLine
import FormatScan.Proofs.Files.Store
import FormatScan.Proofs.Text.Bytes

/-!
# What a verification writes

A verification reads its sets, runs them, writes its log, then the two forms of its report
and last an index of these files. On a tree of files in memory it breaks off in front of
its index only where the sets cannot be loaded or one of the files cannot be written; else
it leaves behind what these writes make of the tree, one behind the other.
-/

namespace FormatScan

/-- The file of an entry holds something of the digest and the size that the entry gives. -/
def Artifact.Describes (artifact : Artifact) (store : Store) : Prop :=
  ∃ contents, store.read artifact.path = .ok contents ∧
    artifact.digest = Sha256.hexDigest contents ∧ artifact.size = contents.length

namespace LoadedSets

open Store

theorem looks_loadFile (path : String) : Looks (loadFile disk path) := by
  refine (looks_readText path).bind fun outcome => ?_
  split
  · exact looks_pure _
  · split <;> exact looks_pure _

theorem looks_loadFiles (paths : List String) : Looks (loadFiles disk paths) := by
  induction paths with
  | nil => exact looks_pure _
  | cons path rest ih =>
    refine (looks_loadFile path).bind fun outcome => ih.bind fun others => ?_
    split <;> exact looks_pure _

/-- Sets are loaded without touching any file. -/
theorem looks_load (directory : String) : Looks (load disk directory) := by
  refine Looks.bind (fun _ => rfl) fun outcome => ?_
  split
  · exact looks_pure _
  · refine (looks_loadFiles _).bind fun loaded => ?_
    split <;> exact looks_pure _

/-- A file with the text of a set is loaded as that set. -/
theorem loadFile_run {store : Store} {path text : String} {set : FixtureSet}
    (hread : store.read path = .ok (bytesOf text)) (htext : FixtureSet.ofText? text = some set) :
    (loadFile disk path).run store = (.ok set, store) := by
  have hbytes : (disk.read path).run store = (.ok (bytesOf text), store) :=
    congrArg (·, store) hread
  rw [loadFile, run_bind, readText_run hbytes]
  simp only
  rw [htext]
  rfl

end LoadedSets

namespace CommandLine

open Store (Wrote)

variable {before after : Store}

/-- The entries of a log, if there is one. -/
def ListsLog (logPath : Option String) (logs : List Artifact) : Prop :=
  logs.map (fun artifact => (artifact.path, artifact.kind)) =
    logPath.toList.map fun file => (file, "log_jsonl")

/-- Listing the log takes its digest and size from the file as it stands. -/
theorem indexLog_cases (before : Store) (logPath : Option String) (index : ArtifactIndex) :
    ((∃ e, (indexLog Store.disk logPath index).run before = (.error e, before)) ∧
        ¬ ∀ file ∈ logPath, ∃ contents, before.read file = .ok contents) ∨
      ∃ logs, (indexLog Store.disk logPath index).run before =
          (.ok { index with artifacts := index.artifacts ++ logs }, before) ∧
        ListsLog logPath logs ∧ ∀ artifact ∈ logs, artifact.Describes before := by
  cases logPath with
  | none => exact .inr ⟨[], by rw [List.append_nil]; rfl, rfl, by simp⟩
  | some file =>
    have hget : (Store.disk.read file).run before = (before.read file, before) := rfl
    cases hread : before.read file with
    | error e =>
      refine .inl ⟨⟨e, ?_⟩, by simp [hread]⟩
      rw [indexLog, ArtifactIndex.addFile, Store.run_bind, hget, hread]
      rfl
    | ok contents =>
      refine .inr ⟨[.ofBytes file "log_jsonl" contents], ?_, rfl, ?_⟩
      · rw [indexLog, ArtifactIndex.addFile, Store.run_bind, hget, hread]
        rfl
      · intro artifact hmem
        rw [List.mem_singleton.mp hmem]
        exact ⟨contents, hread, rfl, rfl⟩

/-- The entries of the two forms of a report. -/
def formsOf (report : Report) (paths : ReportPaths) : List Artifact :=
  [.ofBytes paths.markdown "report_markdown" (bytesOf report.markdown),
    .ofBytes paths.json "report_json" (bytesOf report.text)]

/-- What writing a report leaves behind: the two forms are written, then the index, which
lists the forms as they were written and the log as it stood by then. -/
structure Reported (before after : Store) (report : Report) (paths : ReportPaths)
    (logPath : Option String) (index : ArtifactIndex) : Prop where
  /-- The files were written one behind the other. -/
  exists_wrote : ∃ first second markdown json place logs,
    Wrote before first paths.markdown (bytesOf report.markdown) markdown ∧
    Wrote first second paths.json (bytesOf report.text) json ∧
    Wrote second after paths.index (bytesOf index.text) place ∧
    index.artifacts = formsOf report paths ++ logs ∧
    ListsLog logPath logs ∧ ∀ artifact ∈ logs, artifact.Describes second

/-- A report is written to its end unless one of its files cannot be written or the log
cannot be read. -/
theorem writeReport_cases (before : Store) (report : Report) (paths : ReportPaths)
    (logPath : Option String) (runId generated : String) :
    ((∃ e after, (writeReport Store.disk report paths logPath runId generated).run before =
          (.error e, after)) ∧
        (before.IsTree → before.Writable paths.markdown → before.Writable paths.json →
          before.Writable paths.index →
          ¬ ∀ file ∈ logPath, ∃ contents, before.read file = .ok contents)) ∨
      ∃ after index, (writeReport Store.disk report paths logPath runId generated).run before =
          (.ok index, after) ∧ Reported before after report paths logPath index := by
  have hforms : ((⟨runId, generated, []⟩ : ArtifactIndex).add paths.markdown "report_markdown"
      (bytesOf report.markdown)).add paths.json "report_json" (bytesOf report.text) =
      ⟨runId, generated, formsOf report paths⟩ := rfl
  rw [writeReport]
  dsimp only
  rw [hforms]
  obtain ⟨hbad, e, hrun⟩ | ⟨first, markdown, hrun, hmarkdown⟩ :=
    Store.disk_write_cases before paths.markdown (bytesOf report.markdown)
  · refine .inl ⟨⟨e, before, ?_⟩, fun _ hgood => absurd hgood hbad⟩
    rw [Store.run_bind, writeText, hrun]
    rfl
  rw [Store.run_bind, writeText, hrun]
  simp only
  obtain ⟨hbad, e, hrun⟩ | ⟨second, json, hrun, hjson⟩ :=
    Store.disk_write_cases first paths.json (bytesOf report.text)
  · refine .inl ⟨⟨e, first, ?_⟩, fun htree _ hgood =>
      absurd (hmarkdown.writable htree hgood) hbad⟩
    rw [Store.run_bind, writeText, hrun]
    rfl
  rw [Store.run_bind, writeText, hrun]
  simp only
  obtain ⟨⟨e, hrun⟩, hbad⟩ | ⟨logs, hrun, hlisted, hdescribed⟩ :=
    indexLog_cases second logPath ⟨runId, generated, formsOf report paths⟩
  · refine .inl ⟨⟨e, second, ?_⟩, fun _ _ _ _ hgood => hbad fun file hfile => ?_⟩
    · rw [Store.run_bind, hrun]
      rfl
    · obtain ⟨contents, hread⟩ := hgood file hfile
      obtain ⟨now, hnow⟩ := hmarkdown.exists_read hread
      exact hjson.exists_read hnow
  rw [Store.run_bind, hrun]
  simp only
  obtain ⟨hbad, e, hrun⟩ | ⟨after, place, hrun, hindex⟩ :=
    Store.disk_write_cases second paths.index
      (bytesOf (⟨runId, generated, formsOf report paths ++ logs⟩ : ArtifactIndex).text)
  · refine .inl ⟨⟨e, second, ?_⟩, fun htree _ _ hgood =>
      absurd (hjson.writable (hmarkdown.isTree htree) (hmarkdown.writable htree hgood)) hbad⟩
    rw [Store.run_bind, writeText, hrun]
    rfl
  refine .inr ⟨after, _, ?_, first, second, markdown, json, place, logs, hmarkdown, hjson,
    hindex, rfl, hlisted, hdescribed⟩
  rw [Store.run_bind, writeText, hrun]
  rfl

/-- What the log of a verification leaves behind. -/
structure Logged (before after : Store) (logPath : Option String) : Prop where
  /-- A tree stays one. -/
  isTree : before.IsTree → after.IsTree
  /-- A tree gets no new directories. -/
  directories : before.IsTree → after.Grows before
  /-- What could be written can be written. -/
  writable : before.IsTree → ∀ {path}, before.Writable path → after.Writable path
  /-- The log can be read. -/
  exists_read : ∀ file ∈ logPath, ∃ contents, after.read file = .ok contents

/-- The log is written unless its path leads to no place for a file. -/
theorem writeLog_cases (before : Store) (logPath : Option String) (log : LogEmitter) :
    ((∃ e, (writeLog Store.disk logPath log).run before = (.error e, before)) ∧
        ¬ ∀ file ∈ logPath, before.Writable file) ∨
      ∃ after message, (writeLog Store.disk logPath log).run before = (.ok message, after) ∧
        Logged before after logPath := by
  cases logPath with
  | none => exact .inr ⟨before, "", rfl, id, fun _ _ h => h, fun _ _ h => h, by simp⟩
  | some file =>
    obtain ⟨hbad, e, hrun⟩ | ⟨after, place, hrun, hwrote⟩ :=
      Store.disk_write_cases before file (bytesOf log.text)
    · refine .inl ⟨⟨e, ?_⟩, fun hgood => hbad (hgood file rfl)⟩
      rw [writeLog, Store.run_bind, writeText, hrun]
      rfl
    · refine .inr ⟨after, s!"Wrote {log.emitted} log entries to {file}\n", ?_, hwrote.isTree,
        hwrote.directories, fun htree _ => hwrote.writable htree, ?_⟩
      · rw [writeLog, Store.run_bind, writeText, hrun]
        rfl
      · intro other hother
        cases hother
        exact ⟨_, hwrote.read⟩

/-- The run ended with a failure in front of its verdict. -/
def Run.BreaksOff (run : Run) : Prop :=
  ∃ messages failure, (∀ text, failure ≠ .verdict text) ∧ run = .failure "" messages failure

/-- The report on a verification of some sets. -/
def verifiedReport (around : Surroundings) (config : Config) (timestamp : Option String)
    (sets : List FixtureSet) : Report :=
  let emitter : LogEmitter :=
    { runId := "verify-" ++ around.process, campaign := campaign, least := config.logLevel }
  reportOf (timestamp.getD around.clock.timestamp)
    (verifySets (.still around.clock) emitter sets).results

/-- The files that a verification writes. -/
def filesOf (config : Config) (path : String) : List String :=
  let paths := ReportPaths.of path
  paths.markdown :: paths.json :: paths.index :: config.logPath.toList

/-- A verification of some sets writes its log, its report and its index, and then comes to
its verdict, unless there is no place for one of these files. -/
theorem verifyLoaded_cases (before : Store) (around : Surroundings) (config : Config)
    (path : String) (timestamp : Option String) (messages : String) (sets : List FixtureSet) :
    let verified := verifyLoaded Store.disk around config (some path) timestamp messages sets
    let report := verifiedReport around config timestamp sets
    (∃ run after, verified.run before = (run, after) ∧ run.BreaksOff ∧
        (before.IsTree → ¬ ∀ file ∈ filesOf config path, before.Writable file)) ∨
      ∃ logged after index messages,
        verified.run before = (conclude report.summary messages, after) ∧
          Logged before logged config.logPath ∧
          Reported logged after report (ReportPaths.of path) config.logPath index := by
  intro verified report
  let emitter : LogEmitter :=
    { runId := "verify-" ++ around.process, campaign := campaign, least := config.logLevel }
  let log := (verifySets (.still around.clock) emitter sets).log
  obtain ⟨⟨e, hlogRun⟩, hbad⟩ | ⟨logged, line, hlogRun, hlogged⟩ :=
    writeLog_cases before config.logPath log
  · have hrun : verified.run before = (.failure "" messages (.file e), before) := by
      simp only [verified, verifyLoaded]
      rw [Store.run_bind, hlogRun]
      rfl
    refine .inl ⟨_, _, hrun, ⟨_, _, by simp, rfl⟩, fun _ hgood => hbad fun file hfile => ?_⟩
    exact hgood file (by simp [filesOf, Option.mem_def.mp hfile])
  let said := messages ++ line ++ summaryLines report.summary ++ s!"Writing report to {path}\n"
  let concluded := said ++
    s!"Results digest {report.resultsDigest} (index: {(ReportPaths.of path).index})\n"
  obtain ⟨⟨e, failed, hreport⟩, hbad⟩ | ⟨after, index, hreport, hreported⟩ :=
    writeReport_cases logged report (ReportPaths.of path) config.logPath
      ("verify-" ++ around.process) around.clock.timestamp
  · have hrun : verified.run before = (.failure "" said (.file e), failed) := by
      simp only [report, verifiedReport] at hreport
      simp only [verified, verifyLoaded]
      rw [Store.run_bind, hlogRun]
      simp only
      rw [Store.run_bind, hreport]
      rfl
    refine .inl ⟨_, _, hrun, ⟨_, _, by simp, rfl⟩, fun htree hgood => ?_⟩
    have hwritable {file : String} (hfile : file ∈ filesOf config path) : logged.Writable file :=
      hlogged.writable htree (hgood file hfile)
    exact hbad (hlogged.isTree htree) (hwritable (by simp [filesOf]))
      (hwritable (by simp [filesOf])) (hwritable (by simp [filesOf])) hlogged.exists_read
  · have hrun : verified.run before = (conclude report.summary concluded, after) := by
      simp only [report, verifiedReport] at hreport
      simp only [verified, verifyLoaded]
      rw [Store.run_bind, hlogRun]
      simp only
      rw [Store.run_bind, hreport]
      rfl
    exact .inr ⟨logged, after, index, _, hrun, hlogged, hreported⟩

/-- No directories come up while a report is written in a tree. -/
theorem Reported.directories {report : Report} {paths : ReportPaths} {logPath : Option String}
    {index : ArtifactIndex} (h : Reported before after report paths logPath index)
    (htree : before.IsTree) : after.Grows before := by
  obtain ⟨first, second, _, _, _, _, hmarkdown, hjson, hindex, -⟩ := h
  have hfirst := hmarkdown.isTree htree
  intro place hplace
  exact hmarkdown.directories htree place
    (hjson.directories hfirst place (hindex.directories (hjson.isTree hfirst) place hplace))

/-- A verification that is to write a report breaks off, because its sets cannot be loaded
or one of its files cannot be written, or it comes to its verdict behind its index. -/
theorem execute_cases (before : Store) (around : Surroundings) {words : List String}
    {fixture log timestamp : Option String} {path : String}
    (hparse : parse? words = some (.verify fixture (some path) log timestamp)) :
    let config := (Config.ofEnvironment around.environment).override fixture log
    let outcome := (execute Store.disk around words).run before
    let loaded := ((LoadedSets.load Store.disk config.directory).run before).1
    (outcome.1.BreaksOff ∧ ((∃ found, loaded = .ok found) → before.IsTree →
        ¬ ∀ file ∈ filesOf config path, before.Writable file)) ∨
      ∃ found logged index messages, loaded = .ok found ∧
        let report := verifiedReport around config timestamp found.sets
        outcome.1 = conclude report.summary messages ∧
          Logged before logged config.logPath ∧
          Reported logged outcome.2 report (ReportPaths.of path) config.logPath index := by
  intro config outcome loaded
  have hexecute : outcome = (verify Store.disk around config (some path) timestamp).run before := by
    simp only [outcome, execute, hparse]
    rfl
  have hload : ((LoadedSets.load Store.disk config.directory).run before).2 = before :=
    LoadedSets.looks_load config.directory before
  rw [verify, Store.run_bind, hload] at hexecute
  cases hloaded : loaded with
  | error e =>
    simp only [loaded] at hloaded
    rw [hloaded] at hexecute
    refine .inl ⟨⟨_, .conformance e, by simp, congrArg Prod.fst hexecute⟩, ?_⟩
    rintro ⟨found, hok⟩
    cases hok
  | ok found =>
    simp only [loaded] at hloaded
    rw [hloaded] at hexecute
    obtain ⟨run, after, hrun, hbroken, hbad⟩ |
      ⟨logged, after, index, messages, hrun, hlogged, hreported⟩ :=
      verifyLoaded_cases before around config path timestamp
        (s!"Verifying against fixtures in {config.directory}\n" ++ skippedLines found.skipped)
        found.sets
    · have hout : outcome = (run, after) := hexecute.trans hrun
      rw [hout]
      exact .inl ⟨hbroken, fun _ => hbad⟩
    · have hout : outcome = (conclude _ messages, after) := hexecute.trans hrun
      rw [hout]
      exact .inr ⟨found, logged, index, messages, rfl, rfl, hlogged, hreported⟩

end CommandLine

end FormatScan
