import FormatScan.Conformance.Fixture
import FormatScan.Proofs.Files.Path
import FormatScan.Proofs.Files.Store
import FormatScan.Proofs.Json.Records
import FormatScan.Proofs.Text.ByteOrder
import Mathlib.Data.List.Forall2
import Mathlib.Data.List.Nodup

/-!
# What is loaded from a directory

The files with sets are told by their names and taken in the order of these. Each of them is
either loaded, because there is the text of a set in it, or set aside with the reason; none is
lost and none comes up twice. In which order the directory is listed makes no difference.
-/

namespace FormatScan

/-- What there is to be read under a name: the contents of a file, or the reason why there are
none, as with a directory. -/
abbrev Contents := Except FileError Bytes

namespace Contents

/-- The contents are the text of a set. -/
def HoldsSet (contents : Contents) (set : FixtureSet) : Prop :=
  ∃ text, contents = .ok (bytesOf text) ∧ FixtureSet.ofText? text = some set

/-- The contents are not the text of a set, and what is wrong with them. -/
inductive Lacking (contents : Contents) (path : String) : ConformanceError → Prop
  /-- There are none. -/
  | unreadable {reason : FileError} (h : contents = .error reason) :
      Lacking contents path (.file path reason)
  /-- They are no text. -/
  | notText {bytes : Bytes} (h : contents = .ok bytes) (hbytes : ∀ text, bytes ≠ bytesOf text) :
      Lacking contents path (.file path .notText)
  /-- They are a text, but not that of a set. -/
  | malformed {text : String} (h : contents = .ok (bytesOf text))
      (htext : FixtureSet.ofText? text = none) : Lacking contents path (.json .malformed)

variable {contents : Contents} {path : String}

/-- What is lacking keeps the contents from being a set. -/
theorem Lacking.not_holdsSet {e : ConformanceError} (h : contents.Lacking path e)
    (set : FixtureSet) : ¬contents.HoldsSet set := by
  rintro ⟨text, htext, hset⟩
  cases h with
  | unreadable h =>
    rw [h] at htext
    cases htext
  | notText h hbytes =>
    rw [h] at htext
    cases htext
    exact hbytes text rfl
  | @malformed other h hother =>
    rw [h] at htext
    have hsame : other = text := bytesOf_inj.mp (Except.ok.inj htext)
    rw [← hsame, hother] at hset
    cases hset

end Contents

/-- A directory, as its names and what there is to be read under them. A name is a string
here: file names that are no UTF-8 text are outside the model. -/
structure Directory where
  /-- The names, each with what there is to be read under it. -/
  entries : List (String × Contents)
  /-- No name stands there twice. -/
  distinct : (entries.map (·.1)).Nodup
  /-- No name has a slash in it. -/
  bare : ∀ name ∈ entries.map (·.1), '/' ∉ name.toList

namespace Directory

/-- The names in a directory. -/
def names (directory : Directory) : List String := directory.entries.map (·.1)

/-- A disk shows a directory at a path: it lists the names in some order, and under every one
of them it reads what is there. -/
structure ShownBy (directory : Directory) {σ : Type} (disk : Disk (StateM σ)) (state : σ)
    (path : String) : Prop where
  /-- The names are listed. -/
  exists_listing : ∃ listing, (disk.list path).run state = (.ok listing, state) ∧
    listing.Perm directory.names
  /-- What is there is read. -/
  read : ∀ entry ∈ directory.entries,
    (disk.read (Path.join path entry.1)).run state = (entry.2, state)

/-- The name of a file with a set: something in front of the extension. -/
def IsSetName (name : String) : Prop := ∃ stem : String, stem ≠ "" ∧ name = stem ++ ".json"

/-- How the names of the files with sets are divided into those that were loaded and those
that were set aside. -/
structure Divides (directory : Directory) (path : String) (found : LoadedSets)
    (loaded skipped : List String) : Prop where
  /-- They are all there is. -/
  mem_iff : ∀ name, name ∈ loaded ++ skipped ↔ name ∈ directory.names ∧ IsSetName name
  /-- None comes up twice. -/
  nodup : (loaded ++ skipped).Nodup
  /-- The ones that were loaded are in the order of their bytes. -/
  loaded_ordered : loaded.Pairwise fun first second => bytesOf first < bytesOf second
  /-- So are the ones that were set aside. -/
  skipped_ordered : skipped.Pairwise fun first second => bytesOf first < bytesOf second
  /-- Each of the former holds the set that was loaded for it. -/
  sets : List.Forall₂ (fun name set => ∃ contents, (name, contents) ∈ directory.entries ∧
    contents.HoldsSet set) loaded found.sets
  /-- Each of the latter is there with its path and the reason. -/
  reasons : List.Forall₂ (fun name file => file.1 = Path.join path name ∧
    ∃ contents, (name, contents) ∈ directory.entries ∧ contents.Lacking file.1 file.2)
    skipped found.skipped

variable {directory : Directory} {path name : String}

theorem mem_names_iff :
    name ∈ directory.names ↔ ∃ contents, (name, contents) ∈ directory.entries := by
  simp [names]

/-- There is one thing only to be read under a name. -/
theorem contents_unique {first second : Contents} (hfirst : (name, first) ∈ directory.entries)
    (hsecond : (name, second) ∈ directory.entries) : first = second :=
  congrArg Prod.snd (List.inj_on_of_nodup_map directory.distinct hfirst hsecond rfl)

/-- Nothing was loaded exactly if there is nothing to load. -/
theorem Divides.sets_eq_nil_iff {found : LoadedSets} {loaded skipped : List String}
    (h : directory.Divides path found loaded skipped) :
    found.sets = [] ↔ ∀ name contents, (name, contents) ∈ directory.entries →
      IsSetName name → ∀ set, ¬contents.HoldsSet set := by
  have hsets := h.sets
  constructor
  · intro hnil name contents hentry hname set hset
    rw [hnil, List.forall₂_nil_right_iff] at hsets
    have hmem := (h.mem_iff name).mpr ⟨mem_names_iff.mpr ⟨contents, hentry⟩, hname⟩
    rw [hsets, List.nil_append] at hmem
    obtain ⟨file, -, -, other, hother, hlacking⟩ :=
      Json.exists_mem_of_forall₂ h.reasons.flip hmem
    rw [contents_unique hentry hother] at hset
    exact hlacking.not_holdsSet set hset
  · intro hnone
    cases hfound : found.sets with
    | nil => rfl
    | cons set others =>
      rw [hfound] at hsets
      obtain ⟨name, hloaded, contents, hentry, hset⟩ :=
        Json.exists_mem_of_forall₂ hsets List.mem_cons_self
      have hname := ((h.mem_iff name).mp (List.mem_append_left _ hloaded)).2
      exact absurd hset (hnone name contents hentry hname set)

end Directory

namespace LoadedSets

open Directory
open Store (run_bind readText_run)

theorem hasExtension_iff_isSetName {name : String} (h : '/' ∉ name.toList) :
    Path.hasExtension name fileExtension = true ↔ IsSetName name := by
  rw [fileExtension, Path.hasExtension_iff_append h (by decide) (by decide)]
  simp only [String.append_assoc]
  rfl

/-- Neither a bare extension nor one in other letters or in front of another counts. -/
example : [".json", "A.JSON", "a.json.bak", "a.json"].filter
    (fun name => Path.hasExtension name fileExtension) = ["a.json"] := by decide

/-- What comes of a file depends on its contents alone. -/
theorem exists_loadFile (contents : Contents) (path : String) :
    ∃ outcome, ((∃ set, outcome = .ok set ∧ contents.HoldsSet set) ∨
        ∃ e, outcome = .error e ∧ contents.Lacking path e) ∧
      ∀ {σ : Type} (disk : Disk (StateM σ)) (state : σ),
        (disk.read path).run state = (contents, state) →
          (loadFile disk path).run state = (outcome, state) := by
  cases contents with
  | error reason =>
    refine ⟨.error (.file path reason), .inr ⟨_, rfl, .unreadable rfl⟩, fun disk state h => ?_⟩
    rw [loadFile, run_bind, Disk.readText, run_bind, h]
    rfl
  | ok bytes =>
    cases htext : String.fromUTF8? (ByteArray.mk bytes.toArray) with
    | none =>
      have hbytes : ∀ text, bytes ≠ bytesOf text := by
        intro text heq
        rw [heq, fromUTF8?_bytesOf] at htext
        cases htext
      refine ⟨.error (.file path .notText), .inr ⟨_, rfl, .notText rfl hbytes⟩,
        fun disk state h => ?_⟩
      rw [loadFile, run_bind, Disk.readText, run_bind, h]
      simp only [htext]
      rfl
    | some text =>
      obtain rfl := eq_bytesOf_of_fromUTF8? htext
      cases hset : FixtureSet.ofText? text with
      | none =>
        refine ⟨.error (.json .malformed), .inr ⟨_, rfl, .malformed rfl hset⟩,
          fun disk state h => ?_⟩
        rw [loadFile, run_bind, readText_run h]
        simp only [hset]
        rfl
      | some set =>
        refine ⟨.ok set, .inl ⟨set, rfl, text, rfl, hset⟩, fun disk state h => ?_⟩
        rw [loadFile, run_bind, readText_run h]
        simp only [hset]
        rfl

/-- A list of files is divided one file after the other. -/
theorem exists_loadFiles (directory : Directory) (path : String) {names : List String}
    (h : ∀ name ∈ names, name ∈ directory.names) :
    ∃ found loaded skipped, (loaded ++ skipped).Perm names ∧
      loaded.Sublist names ∧ skipped.Sublist names ∧
      List.Forall₂ (fun name set => ∃ contents, (name, contents) ∈ directory.entries ∧
        contents.HoldsSet set) loaded found.sets ∧
      List.Forall₂ (fun name file => file.1 = Path.join path name ∧
        ∃ contents, (name, contents) ∈ directory.entries ∧ contents.Lacking file.1 file.2)
        skipped found.skipped ∧
      ∀ {σ : Type} (disk : Disk (StateM σ)) (state : σ), directory.ShownBy disk state path →
        (loadFiles disk (names.map (Path.join path))).run state = (found, state) := by
  induction names with
  | nil => exact ⟨⟨[], []⟩, [], [], .nil, .slnil, .slnil, .nil, .nil, fun _ _ _ => rfl⟩
  | cons name names ih =>
    obtain ⟨hname, hnames⟩ := List.forall_mem_cons.mp h
    obtain ⟨others, loaded, skipped, hperm, hloaded, hskipped, hsets, hreasons, hrun⟩ := ih hnames
    obtain ⟨contents, hentry⟩ := mem_names_iff.mp hname
    obtain ⟨outcome, hcases, hfile⟩ := exists_loadFile contents (Path.join path name)
    obtain ⟨set, rfl, hset⟩ | ⟨e, rfl, hlacking⟩ := hcases
    · refine ⟨{ others with sets := set :: others.sets }, name :: loaded, skipped, hperm.cons name,
        hloaded.cons_cons name, hskipped.cons name, .cons ⟨contents, hentry, hset⟩ hsets, hreasons,
        fun disk state hshown => ?_⟩
      rw [List.map_cons, loadFiles, run_bind, hfile disk state (hshown.read _ hentry), run_bind,
        hrun disk state hshown]
      rfl
    · refine ⟨{ others with skipped := (Path.join path name, e) :: others.skipped }, loaded,
        name :: skipped, List.perm_middle.trans (hperm.cons name), hloaded.cons name,
        hskipped.cons_cons name, hsets, .cons ⟨rfl, contents, hentry, hlacking⟩ hreasons,
        fun disk state hshown => ?_⟩
      rw [List.map_cons, loadFiles, run_bind, hfile disk state (hshown.read _ hentry), run_bind,
        hrun disk state hshown]
      rfl

theorem pairwise_mergeSort (names : List String) :
    (names.mergeSort fun a b => decide (a ≤ b)).Pairwise (· ≤ ·) := by
  have htrans : ∀ a b c : String, decide (a ≤ b) = true → decide (b ≤ c) = true →
      decide (a ≤ c) = true := by
    intro a b c hab hbc
    exact decide_eq_true (le_trans (of_decide_eq_true hab) (of_decide_eq_true hbc))
  have htotal : ∀ a b : String, (decide (a ≤ b) || decide (b ≤ a)) = true := by
    intro a b
    rw [Bool.or_eq_true, decide_eq_true_eq, decide_eq_true_eq]
    exact le_total a b
  exact (List.pairwise_mergeSort htrans htotal names).imp of_decide_eq_true

/-- The files of a directory come in one order, however it is listed. -/
theorem filesOf_eq_of_perm {first second : List String} (h : first.Perm second) (path : String) :
    filesOf path first = filesOf path second := by
  have hperm := h.filter fun name => Path.hasExtension name fileExtension
  have hsame := (List.mergeSort_perm _ fun a b : String => decide (a ≤ b)).trans
    (hperm.trans (List.mergeSort_perm _ fun a b : String => decide (a ≤ b)).symm)
  have hsorted := List.Perm.eq_of_pairwise (fun _ _ _ _ => le_antisymm) (pairwise_mergeSort _)
    (pairwise_mergeSort _) hsame
  rw [filesOf, filesOf, hsorted]

/-- The names of files with sets, in the order in which they are taken. -/
theorem exists_filesOf (directory : Directory) (path : String) :
    ∃ names : List String, filesOf path directory.names = names.map (Path.join path) ∧
      (∀ name, name ∈ names ↔ name ∈ directory.names ∧ IsSetName name) ∧
      names.Pairwise fun first second => bytesOf first < bytesOf second := by
  refine ⟨_, rfl, fun name => ?_, ?_⟩
  · rw [List.mem_mergeSort, List.mem_filter]
    refine and_congr_right fun hname => ?_
    exact hasExtension_iff_isSetName (directory.bare name hname)
  · have hnodup : (directory.names.filter fun name =>
        Path.hasExtension name fileExtension).Nodup := directory.distinct.filter _
    have hperm := List.mergeSort_perm (directory.names.filter fun name =>
      Path.hasExtension name fileExtension) fun a b => decide (a ≤ b)
    have hdistinct := hperm.nodup_iff.mpr hnodup
    refine ((pairwise_mergeSort _).and hdistinct).imp fun ⟨hle, hne⟩ => ?_
    exact bytesOf_lt (lt_of_le_of_ne hle hne)

/-- A directory is divided in the same way however it is listed, and on whatever disk it is
found. The files whose names have the extension are all there is, and none of them comes up
twice: some hold the text of a set and are loaded, the others are set aside with the reason,
and both are in the order of the bytes of their names. Only where no file holds a set there is
no answer but that. -/
theorem load_divides (directory : Directory) (path : String) :
    ∃ found loaded skipped, directory.Divides path found loaded skipped ∧
      (found.sets = [] ↔ ∀ name contents, (name, contents) ∈ directory.entries →
        IsSetName name → ∀ set, ¬contents.HoldsSet set) ∧
      ∀ {σ : Type} (disk : Disk (StateM σ)) (state : σ), directory.ShownBy disk state path →
        (load disk path).run state =
          (if found.sets = [] then .error (.noFixtures path) else .ok found, state) := by
  obtain ⟨names, hfiles, hmem, hordered⟩ := exists_filesOf directory path
  obtain ⟨found, loaded, skipped, hperm, hloaded, hskipped, hsets, hreasons, hrun⟩ :=
    exists_loadFiles directory path fun name hname => ((hmem name).mp hname).1
  have hdivides : directory.Divides path found loaded skipped :=
    { mem_iff := fun name => hperm.mem_iff.trans (hmem name)
      nodup := hperm.nodup_iff.mpr (hordered.imp fun hlt heq => by
        rw [heq] at hlt
        exact List.lt_irrefl _ hlt)
      loaded_ordered := hordered.sublist hloaded
      skipped_ordered := hordered.sublist hskipped
      sets := hsets
      reasons := hreasons }
  refine ⟨found, loaded, skipped, hdivides, hdivides.sets_eq_nil_iff, fun disk state hshown => ?_⟩
  obtain ⟨listing, hlist, hlisting⟩ := hshown.exists_listing
  rw [load, run_bind, hlist]
  simp only
  rw [filesOf_eq_of_perm hlisting, hfiles, run_bind, hrun disk state hshown]
  cases found.sets <;> rfl

/-- A set without cases. -/
def caselessSet : FixtureSet := { version := "v1", family := "f", capturedAt := "", cases := [] }

/-- A directory with the name of a set, a set, and three files with other names. -/
def mixedEntries : List (String × Contents) :=
  [("c.json", .error .isDirectory), ("a.json", .ok (bytesOf caselessSet.text)), (".json", .ok []),
    ("A.JSON", .ok []), ("a.json.bak", .ok [])]

/-- A directory with these entries. -/
def mixed : Directory := ⟨mixedEntries, by decide, by decide⟩

/-- A tree with this directory, whose entries were made in some order. -/
def mixedStore (entries : List (String × Contents)) : Store :=
  .ofFiles (entries.map fun entry => ("fx/" ++ entry.1, entry.2.toOption))

/-- Such a tree shows the directory, with its names in the order in which they were made. -/
theorem shownBy_mixedStore {entries : List (String × Contents)}
    (h : entries ∈ [mixedEntries, mixedEntries.reverse]) :
    (mixedStore entries).list "fx" = .ok (entries.map (·.1)) ∧
      mixed.ShownBy Store.disk (mixedStore entries) "fx" := by
  have hlist : (mixedStore entries).list "fx" = .ok (entries.map (·.1)) := by
    rw [Store.list, Store.resolve_eq (by decide) (by decide +kernel) (by decide +kernel)]
    rcases List.mem_pair.mp h with rfl | rfl <;> rfl
  have hplace : ∀ entry ∈ mixedEntries, (mixedStore entries).resolve (Path.join "fx" entry.1) =
      .ok ["", "fx", entry.1] := by
    have hpath : ∀ entry ∈ mixedEntries, '\x00' ∉ (Path.join "fx" entry.1).toList ∧
        (Path.join "fx" entry.1).isEmpty = false ∧
        (Path.join "fx" entry.1).utf8ByteSize ≤ Store.pathLimit := by decide +kernel
    have hwalk : ∀ entries ∈ [mixedEntries, mixedEntries.reverse], ∀ entry ∈ mixedEntries,
        (mixedStore entries).walk
          (if (Path.join "fx" entry.1).toList.head? == some '/' then [] else Store.home)
          (Path.names (Path.join "fx" entry.1)) = .ok ["", "fx", entry.1] := by decide +kernel
    intro entry hentry
    obtain ⟨hzero, hempty, hlong⟩ := hpath entry hentry
    rw [Store.resolve_eq hzero hempty hlong, hwalk entries h entry hentry]
  have hread : ∀ entry ∈ mixedEntries,
      (mixedStore entries).read (Path.join "fx" entry.1) = entry.2 := by
    have hnode : ∀ entries ∈ [mixedEntries, mixedEntries.reverse], ∀ entry ∈ mixedEntries,
        (mixedStore entries).node? ["", "fx", entry.1] = some (match entry.2 with
          | .ok contents => .file contents
          | .error _ => .directory) := by decide +kernel
    have hreason : ∀ entry ∈ mixedEntries, ∀ reason, entry.2 = .error reason →
        reason = .isDirectory := by
      simp [mixedEntries]
    intro entry hentry
    rw [Store.read, hplace entry hentry]
    dsimp only
    rw [hnode entries h entry hentry]
    cases hcontents : entry.2 with
    | ok contents => rfl
    | error reason => rw [hreason entry hentry reason hcontents]
  have hperm : (entries.map (·.1)).Perm mixed.names := by
    rcases List.mem_pair.mp h with rfl | rfl
    · exact .refl _
    · exact (mixedEntries.reverse_perm).map _
  exact ⟨hlist, ⟨_, congrArg (·, mixedStore entries) hlist, hperm⟩,
    fun entry hentry => congrArg (·, mixedStore entries) (hread entry hentry)⟩

/-- Two trees with this directory, made in opposite orders and listed differently: the same
sets are loaded from both. -/
theorem load_divides_mixed :
    let first := mixedStore mixedEntries
    let second := mixedStore mixedEntries.reverse
    first.list "fx" ≠ second.list "fx" ∧ ∃ found loaded skipped,
      mixed.Divides "fx" found loaded skipped ∧ found.sets ≠ [] ∧
      ((load Store.disk "fx").run first).1 = .ok found ∧
      ((load Store.disk "fx").run second).1 = .ok found := by
  intro first second
  obtain ⟨hfirst, hshown⟩ := @shownBy_mixedStore mixedEntries List.mem_cons_self
  obtain ⟨hsecond, hback⟩ := shownBy_mixedStore (List.mem_pair.mpr (.inr rfl))
  obtain ⟨found, loaded, skipped, hdivides, hnone, hrun⟩ := load_divides mixed "fx"
  have hset : FixtureSet.ofText? caselessSet.text = some caselessSet := by
    have hexact : caselessSet.toJson.Exact := by
      simp [caselessSet, FixtureSet.toJson, FixtureSet.members]
    have htree : Json.Source.parse? caselessSet.text =
        some (Json.sourceOf caselessSet.toJson) := hexact.parse?_print Json.Layout.spaced_indented
    rw [FixtureSet.ofText?, htree]
    rfl
  have hsome : found.sets ≠ [] := fun hnil =>
    hnone.mp hnil "a.json" _ (List.mem_cons_of_mem _ List.mem_cons_self) ⟨"a", by decide, rfl⟩
      caselessSet ⟨caselessSet.text, rfl, hset⟩
  refine ⟨?_, found, loaded, skipped, hdivides, hsome, ?_, ?_⟩
  · rw [hfirst, hsecond]
    decide
  · rw [hrun _ _ hshown, if_neg hsome]
  · rw [hrun _ _ hback, if_neg hsome]

end LoadedSets

end FormatScan
