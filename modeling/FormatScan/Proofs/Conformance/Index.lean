import FormatScan.Proofs.Conformance.Verifying
import FormatScan.Proofs.Json.Records

/-!
# What an index says of the files

The digests and sizes in the index of a verification are those of the texts it wrote, taken
when they were written, and the question is whether the files still hold these texts when
the run is over. They do unless two of the paths lead to one place. The JSON form of a
report stands beside the Markdown form under a name with an extension of its own, so that it
takes the place of the Markdown form exactly if the report was asked for under a name with
that extension.
-/

namespace FormatScan.CommandLine

open Store (Wrote)

variable {before after : Store}

/-- The three files of a report in a tree: the index is in a place of its own, and the two
forms share a place exactly if the report was asked for under a name with the extension of
the JSON form, which then is the path of both. -/
theorem places_of_report {store : Store} (htree : store.IsTree) {path : String}
    {markdown json place : List String}
    (hmarkdown : store.resolve path = .ok markdown)
    (hjson : store.resolve (ReportPaths.of path).json = .ok json)
    (hindex : store.resolve (ReportPaths.of path).index = .ok place)
    (hmarkdownFile : store.node? markdown ≠ some .directory)
    (hjsonFile : store.node? json ≠ some .directory)
    (hindexFile : store.node? place ≠ some .directory) :
    markdown ≠ place ∧ json ≠ place ∧ (markdown = json ↔ Path.hasExtension path "json") ∧
      (Path.hasExtension path "json" → (ReportPaths.of path).json = path) := by
  obtain ⟨front, name, hends⟩ := Path.exists_ends path
  have hname := (htree.exists_file hends hmarkdown hmarkdownFile).1
  have hjsonEnds : Path.Ends (ReportPaths.of path).json front
      (Path.renamed name "json".toList) := hends.withExtension hname (by decide)
  have hindexEnds : Path.Ends (ReportPaths.of path).index front
      (Path.renamed name "artifacts.json".toList) := hends.withExtension hname (by decide)
  have hjsonName := (htree.exists_file hjsonEnds hjson hjsonFile).1
  have hindexName := (htree.exists_file hindexEnds hindex hindexFile).1
  have hsame : name = Path.renamed name "json".toList ↔ Path.hasExtension path "json" := by
    rw [hends.hasExtension_iff hname, ← Path.renamed_eq_self_iff hname hjsonName, eq_comm]
  refine ⟨fun heq => ?_, fun heq => ?_, ?_, fun hext => ?_⟩
  · have hself := (htree.place_eq_iff hends hindexEnds hmarkdown hindex hmarkdownFile
      hindexFile).mp heq
    have hdot := Path.dot_not_mem_extension hname
      ((Path.renamed_eq_self_iff hname hindexName).mp hself.symm)
    exact hdot (by decide)
  · have hboth := (htree.place_eq_iff hjsonEnds hindexEnds hjson hindex hjsonFile
      hindexFile).mp heq
    exact absurd ((Path.renamed_inj hjsonName).mp hboth) (by decide)
  · rw [htree.place_eq_iff hends hjsonEnds hmarkdown hjson hmarkdownFile hjsonFile, hsame]
  · apply String.toList_inj.mp
    rw [hjsonEnds.toList_eq, hends.toList_eq, ← hsame.mpr hext]

/-- The Markdown form and the JSON form of a report are different texts: one starts with a
hash, the other with a brace. -/
theorem markdown_ne_text (report : Report) : report.markdown ≠ report.text := by
  intro heq
  have hhash : report.markdown.toList.head? = some '#' := by
    simp only [Report.markdown, Report.heading, String.toList_append, List.append_assoc]
    rfl
  have hbrace : report.text.toList.head? = some '{' := by
    simp [Report.text, Report.toJson, Report.members, Json.indented, Json.printAt]
  rw [heq, hbrace] at hhash
  cases hhash

/-- An index at the end of the run that wrote it. -/
structure Indexed (store : Store) (report : Report) (path : String) (logPath : Option String)
    (index : ArtifactIndex) : Prop where
  /-- The index is what its file holds. -/
  written : store.read (ReportPaths.of path).index = .ok (bytesOf index.text)
  /-- The JSON form of the report is what its file holds. -/
  json : store.read (ReportPaths.of path).json = .ok (bytesOf report.text)
  /-- The two forms of the report are listed, and the log if there is one. -/
  listed : ∃ logs, index.artifacts = formsOf report (ReportPaths.of path) ++ logs ∧
    ListsLog logPath logs
  /-- Every entry but that of the Markdown form describes its file. -/
  describes : ∀ artifact ∈ index.artifacts, artifact.kind ≠ "report_markdown" →
    artifact.Describes store
  /-- That of the Markdown form does so too, unless the report was asked for under a name
  with the extension of the JSON form: then the JSON form is in that file. -/
  describes_iff : (∀ artifact ∈ index.artifacts, artifact.Describes store) ↔
    (Path.hasExtension path "json" →
      Sha256.hexDigest (bytesOf report.markdown) = Sha256.hexDigest (bytesOf report.text) ∧
        (bytesOf report.markdown).length = (bytesOf report.text).length)

/-- An entry of a text describes a file with some contents exactly if these have the digest
and the size of the text. -/
theorem describes_ofBytes_iff {store : Store} {path : String} {contents : Bytes}
    (hread : store.read path = .ok contents) (kind : String) (text : Bytes) :
    (Artifact.ofBytes path kind text).Describes store ↔
      Sha256.hexDigest text = Sha256.hexDigest contents ∧ text.length = contents.length := by
  constructor
  · rintro ⟨stored, hstored, hdigest, hsize⟩
    cases hread.symm.trans hstored
    exact ⟨hdigest, hsize⟩
  · rintro ⟨hdigest, hsize⟩
    exact ⟨contents, hread, hdigest, hsize⟩

/-- The entries of a log go on describing it when a file is written in another place. -/
theorem describes_log {path : String} {contents : Bytes} {place : List String}
    (hwrote : Wrote before after path contents place) {logPath : Option String}
    {logs : List Artifact} (hlisted : ListsLog logPath logs)
    (hapart : ∀ file ∈ logPath, after.resolve file ≠ .ok place)
    (hlogs : ∀ artifact ∈ logs, artifact.Describes before) :
    ∀ artifact ∈ logs, artifact.Describes after := by
  intro artifact hmem
  have hpair := List.mem_map_of_mem (f := fun artifact => (artifact.path, artifact.kind)) hmem
  rw [hlisted] at hpair
  obtain ⟨file, hfile, heq⟩ := List.mem_map.mp hpair
  obtain ⟨rfl, -⟩ := Prod.mk.inj heq
  obtain ⟨stored, hread, hdigest, hsize⟩ := hlogs artifact hmem
  exact ⟨stored, hwrote.read_of_ne hread (hapart _ (Option.mem_toList.mp hfile)), hdigest, hsize⟩

/-- A report that was written in a tree is indexed, if its log is not in the place of the
index. -/
theorem indexed_of_reported (htree : before.IsTree) {report : Report} {path : String}
    {logPath : Option String} {index : ArtifactIndex}
    (h : Reported before after report (ReportPaths.of path) logPath index)
    (hapart : ∀ file ∈ logPath, ∀ place, after.resolve file = .ok place →
      after.resolve (ReportPaths.of path).index ≠ .ok place) :
    Indexed after report path logPath index := by
  obtain ⟨first, second, markdown, json, place, logs, hmarkdown, hjson, hindex, hartifacts,
    hlisted, hlogs⟩ := h
  have hfirst := hmarkdown.isTree htree
  have hsecond := hjson.isTree hfirst
  have hafter := hindex.isTree hsecond
  have hmarkdownPlace : after.resolve path = .ok markdown :=
    hindex.grows.resolve (hjson.grows.resolve hmarkdown.resolve)
  have hjsonPlace := hindex.grows.resolve hjson.resolve
  have hindexPlace := hindex.resolve
  have hmarkdownFile := hindex.not_directory hsecond (hjson.not_directory hfirst hmarkdown.is_file)
  have hjsonFile := hindex.not_directory hsecond hjson.is_file
  obtain ⟨hmarkdownIndex, hjsonIndex, hshared, hsame⟩ := places_of_report hafter hmarkdownPlace
    hjsonPlace hindexPlace hmarkdownFile hjsonFile hindex.is_file
  -- the last write is that of the index, and no other file is in its place
  have hjsonRead : after.read (ReportPaths.of path).json = .ok (bytesOf report.text) :=
    hindex.read_of_ne hjson.read (by simpa [hjsonPlace] using hjsonIndex)
  have hlogsAfter : ∀ artifact ∈ logs, artifact.Describes after :=
    describes_log hindex hlisted
      (fun file hfile hplace => hapart file hfile place hplace hindexPlace) hlogs
  have hjsonAfter : (Artifact.ofBytes (ReportPaths.of path).json "report_json"
      (bytesOf report.text)).Describes after :=
    (describes_ofBytes_iff hjsonRead _ _).mpr ⟨rfl, rfl⟩
  have hmarkdownAfter : (Artifact.ofBytes path "report_markdown"
      (bytesOf report.markdown)).Describes after ↔
        (Path.hasExtension path "json" →
          Sha256.hexDigest (bytesOf report.markdown) = Sha256.hexDigest (bytesOf report.text) ∧
            (bytesOf report.markdown).length = (bytesOf report.text).length) := by
    by_cases hext : Path.hasExtension path "json"
    · rw [hsame hext] at hjsonRead
      rw [describes_ofBytes_iff hjsonRead]
      exact ⟨fun heq _ => heq, fun heq => heq hext⟩
    · have hkept : second.read path = .ok (bytesOf report.markdown) := by
        refine hjson.read_of_ne hmarkdown.read ?_
        intro heq
        cases (hjson.grows.resolve hmarkdown.resolve).symm.trans heq
        exact hext (hshared.mp rfl)
      have hread : after.read path = .ok (bytesOf report.markdown) :=
        hindex.read_of_ne hkept (by simpa [hmarkdownPlace] using hmarkdownIndex)
      rw [describes_ofBytes_iff hread]
      exact ⟨fun _ hyes => absurd hyes hext, fun _ => ⟨rfl, rfl⟩⟩
  refine ⟨hindex.read, hjsonRead, ⟨logs, hartifacts, hlisted⟩, ?_, ?_⟩
  · intro artifact hmem hkind
    rw [hartifacts, formsOf] at hmem
    obtain rfl | rfl | hmem := by simpa using hmem
    · exact absurd rfl hkind
    · exact hjsonAfter
    · exact hlogsAfter artifact hmem
  · rw [← hmarkdownAfter]
    constructor
    · intro hall
      exact hall _ (by simp [hartifacts, formsOf, ReportPaths.of])
    · intro hfirst artifact hmem
      rw [hartifacts, formsOf] at hmem
      obtain rfl | rfl | hmem := by simpa using hmem
      · exact hfirst
      · exact hjsonAfter
      · exact hlogsAfter artifact hmem

/-- A set without cases. -/
def emptySet : FixtureSet := { version := "", family := "", capturedAt := "", cases := [] }

/-- A directory with one set, which has no cases. -/
def smallStore : Store := .ofFiles [("fx", none), ("fx/a.json", some (bytesOf emptySet.text))]

/-- Surroundings without any settings. -/
def bareSurroundings : Surroundings := ⟨fun _ => none, "1", ⟨"T", 0⟩⟩

theorem isTree_smallStore : smallStore.IsTree := by
  have heq : smallStore = (Store.empty.put ["", "fx"] .directory).put ["", "fx", "a.json"]
      (.file (bytesOf emptySet.text)) := rfl
  rw [heq]
  have hfolder : (Store.empty.put ["", "fx"] .directory).IsTree :=
    Store.isTree_empty.put (by decide) (by decide) .directory
  exact hfolder.put (by decide) (by decide) _

theorem load_smallStore :
    ((LoadedSets.load Store.disk "fx").run smallStore).1 = .ok ⟨[emptySet], []⟩ := by
  have hlist : (Store.disk.list "fx").run smallStore = (.ok ["a.json"], smallStore) := by
    have heq : smallStore.list "fx" = .ok ["a.json"] := by
      rw [Store.list, Store.resolve_eq (by decide) (by decide +kernel) (by decide +kernel)]
      rfl
    rw [← heq]
    rfl
  have hfiles : LoadedSets.filesOf "fx" ["a.json"] = ["fx/a.json"] := by decide +kernel
  have hread : smallStore.read "fx/a.json" = .ok (bytesOf emptySet.text) := by
    refine Store.read_eq_ok.mpr ⟨["", "fx", "a.json"], ?_, rfl⟩
    rw [Store.resolve_eq (by decide) (by decide +kernel) (by decide +kernel)]
    rfl
  have hset : FixtureSet.ofText? emptySet.text = some emptySet := by
    have hexact : emptySet.toJson.Exact := by simp [emptySet, FixtureSet.toJson, FixtureSet.members]
    have htree : Json.Source.parse? emptySet.text = some (Json.sourceOf emptySet.toJson) :=
      hexact.parse?_print Json.Layout.spaced_indented
    rw [FixtureSet.ofText?, htree]
    rfl
  rw [LoadedSets.load, Store.run_bind, hlist]
  simp only
  rw [hfiles, Store.run_bind, LoadedSets.loadFiles, Store.run_bind,
    LoadedSets.loadFile_run hread hset]
  rfl

theorem resolve_smallStore : ∀ file ∈ ["r.md", "r.json", "r.artifacts.json", "l.jsonl"],
    smallStore.resolve file = .ok ["", file] ∧ smallStore.node? ["", file] = none := by
  have hwalk : ∀ file ∈ ["r.md", "r.json", "r.artifacts.json", "l.jsonl"],
      ('\x00' ∉ file.toList ∧ file.isEmpty = false ∧ file.utf8ByteSize ≤ Store.pathLimit) ∧
        smallStore.walk (if file.toList.head? == some '/' then [] else Store.home)
          (Path.names file) = .ok ["", file] ∧ smallStore.node? ["", file] = none := by
    decide +kernel
  intro file hfile
  obtain ⟨⟨hzero, hempty, hlong⟩, hplace, hnode⟩ := hwalk file hfile
  exact ⟨by rw [Store.resolve_eq hzero hempty hlong, hplace], hnode⟩

theorem writable_smallStore {file : String}
    (hfile : file ∈ ["r.md", "r.json", "r.artifacts.json", "l.jsonl"]) :
    smallStore.Writable file := by
  obtain ⟨hplace, hnode⟩ := resolve_smallStore file hfile
  exact ⟨_, hplace, by simp [hnode]⟩

/-- The run of a verification that is to write a report, in a tree in which its log and its
index have places of their own. It breaks off, because its sets cannot be loaded or one of
its files cannot be written; or it comes to its verdict and leaves an index behind. Then
every entry describes what stands in its file at the end of the run, except where the report
was asked for under a name with the extension of the JSON form: there the JSON form has
replaced the Markdown form, whose entry is still that of the text that was replaced. -/
theorem execute_index (around : Surroundings) {words : List String}
    {fixture log timestamp : Option String} {path : String}
    (hparse : parse? words = some (.verify fixture (some path) log timestamp))
    (htree : before.IsTree) :
    let config := (Config.ofEnvironment around.environment).override fixture log
    let outcome := (execute Store.disk around words).run before
    (∀ file ∈ config.logPath, ∀ place, before.resolve file = .ok place →
        before.resolve (ReportPaths.of path).index ≠ .ok place) →
      (outcome.1.BreaksOff ∧
        ((∃ loaded, ((LoadedSets.load Store.disk config.directory).run before).1 = .ok loaded) →
          ¬ ∀ file ∈ filesOf config path, before.Writable file)) ∨
      ∃ sets messages index,
        let report := verifiedReport around config timestamp sets
        outcome.1 = conclude report.summary messages ∧ report.markdown ≠ report.text ∧
          Indexed outcome.2 report path config.logPath index := by
  intro config outcome hapart
  obtain ⟨hbroken, hbad⟩ | ⟨found, logged, index, messages, -, hrun, hlogged, hreported⟩ :=
    execute_cases before around hparse
  · exact .inl ⟨hbroken, fun hload => hbad hload htree⟩
  · have hlog := hlogged.isTree htree
    refine .inr ⟨found.sets, messages, index, hrun, markdown_ne_text _,
      indexed_of_reported hlog hreported fun file hfile place hfilePlace hplace => ?_⟩
    have hback : outcome.2.Grows before := fun place hplace =>
      hlogged.directories htree place (hreported.directories hlog place hplace)
    exact hapart file hfile place (hback.resolve hfilePlace) (hback.resolve hplace)

/-- A report with a log and the usual extension: all three entries describe their files. -/
theorem execute_index_with_log :
    let words := ["verify", "--fixture", "fx", "--report", "r.md", "--log", "l.jsonl"]
    let outcome := (execute Store.disk bareSurroundings words).run smallStore
    parse? words = some (.verify (some "fx") (some "r.md") (some "l.jsonl") none) ∧
      smallStore.IsTree ∧ smallStore.resolve "l.jsonl" ≠ smallStore.resolve "r.artifacts.json" ∧
      ∃ index : ArtifactIndex, outcome.2.read "r.artifacts.json" = .ok (bytesOf index.text) ∧
        index.artifacts.map (·.path) = ["r.md", "r.json", "l.jsonl"] ∧
        ∀ artifact ∈ index.artifacts, artifact.Describes outcome.2 := by
  intro words outcome
  have hparse : parse? words = some (.verify (some "fx") (some "r.md") (some "l.jsonl") none) := by
    decide +kernel
  have hlogPlace := (resolve_smallStore "l.jsonl" (by decide)).1
  have hindexPlace := (resolve_smallStore "r.artifacts.json" (by decide)).1
  have hpaths : ReportPaths.of "r.md" = ⟨"r.md", "r.json", "r.artifacts.json"⟩ := by decide +kernel
  refine ⟨hparse, isTree_smallStore, by simp [hlogPlace, hindexPlace], ?_⟩
  obtain ⟨-, hbad⟩ | ⟨sets, messages, index, -, -, hindexed⟩ :=
    execute_index bareSurroundings hparse isTree_smallStore (by
      intro file hfile place hplace
      cases hfile
      rw [hlogPlace] at hplace
      cases hplace
      rw [hpaths, hindexPlace]
      simp)
  · refine absurd (fun file hfile => writable_smallStore ?_) (hbad ⟨_, load_smallStore⟩)
    rw [filesOf, hpaths] at hfile
    exact hfile
  · obtain ⟨logs, hartifacts, hlogs⟩ := hindexed.listed
    have hwritten := hindexed.written
    rw [hpaths] at hwritten
    refine ⟨index, hwritten, ?_, hindexed.describes_iff.mpr fun hext => ?_⟩
    · have hlogPaths : logs.map (·.path) = ["l.jsonl"] := by
        have hfirsts := congrArg (List.map Prod.fst) hlogs
        rw [List.map_map] at hfirsts
        exact hfirsts
      rw [hartifacts, List.map_append, hlogPaths, hpaths]
      rfl
    · exact absurd hext (by decide +kernel)

/-- A report under a name with the extension of the JSON form: the entry of the Markdown
form does not describe what is in the file at the end of the run. -/
theorem execute_index_json_name :
    let words := ["verify", "--fixture", "fx", "--report", "r.json"]
    let outcome := (execute Store.disk bareSurroundings words).run smallStore
    smallStore.IsTree ∧ outcome.1.exit = 0 ∧
      ∃ index : ArtifactIndex, outcome.2.read "r.artifacts.json" = .ok (bytesOf index.text) ∧
        index.artifacts.map (·.path) = ["r.json", "r.json"] ∧
        ∃ artifact ∈ index.artifacts, ¬ artifact.Describes outcome.2 := by
  intro words outcome
  have hparse : parse? words = some (.verify (some "fx") (some "r.json") none none) := by
    decide +kernel
  have hpaths : ReportPaths.of "r.json" = ⟨"r.json", "r.json", "r.artifacts.json"⟩ := by
    decide +kernel
  refine ⟨isTree_smallStore, ?_⟩
  obtain ⟨-, hbad⟩ | ⟨found, logged, index, messages, hload, hrun, hlogged, hreported⟩ :=
    execute_cases smallStore bareSurroundings hparse
  · refine absurd (fun file hfile => writable_smallStore ?_)
      (hbad ⟨_, load_smallStore⟩ isTree_smallStore)
    rw [filesOf, hpaths] at hfile
    simp only [List.mem_cons] at hfile ⊢
    tauto
  · cases load_smallStore.symm.trans hload
    have hindexed := indexed_of_reported (hlogged.isTree isTree_smallStore) hreported
      (by intro file hfile; cases hfile)
    obtain ⟨logs, hartifacts, hlogs⟩ := hindexed.listed
    have hwritten := hindexed.written
    rw [hpaths] at hwritten
    refine ⟨?_, index, hwritten, ?_, ?_⟩
    · have hpassed : (reportOf "T" []).summary.allPassed = true := by
        rw [reportOf, List.mergeSort_nil]
        rfl
      change outcome.1 = conclude (reportOf "T" []).summary messages at hrun
      rw [hrun, conclude, if_pos hpassed]
      rfl
    · have hnoLog : logs = [] := List.map_eq_nil_iff.mp hlogs
      rw [hartifacts, hnoLog, hpaths]
      rfl
    · -- the two forms differ in their lengths
      have hsizes : (bytesOf (reportOf "T" []).markdown).length = 237 ∧
          (bytesOf (reportOf "T" []).text).length = 175 := by decide +kernel
      have hnot : ¬ ∀ artifact ∈ index.artifacts, artifact.Describes outcome.2 := by
        rw [hindexed.describes_iff]
        intro hsame
        have hlength := (hsame (by decide +kernel)).2
        change (bytesOf (reportOf "T" []).markdown).length =
          (bytesOf (reportOf "T" []).text).length at hlength
        rw [hsizes.1, hsizes.2] at hlength
        cases hlength
      simpa using hnot

end FormatScan.CommandLine
