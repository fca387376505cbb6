import FormatScan.Files.Store
import FormatScan.Proofs.Files.Path
import FormatScan.Proofs.Text.Bytes
import Mathlib.Data.List.Induction
import Mathlib.Data.List.Infix

/-!
# What a write leaves behind

Writing a file puts it where its path leads and changes nothing else: directories stay
directories, so that every other path goes on leading where it led, and other files keep
their contents. In a tree, where directories stand in directories, the place of a file has
a directory above it.
-/

namespace FormatScan.Store

variable {store : Store} {place other : List String} {node : Node}

/-- What was put at a place, if anything was. -/
def stored? (store : Store) (place : List String) : Option Node :=
  (store.nodes.find? fun entry => entry.1 == place).map (·.2)

/-- Whether something was put at a place or further down. -/
def leads (store : Store) (place : List String) : Bool :=
  store.nodes.any fun entry => place.isPrefixOf entry.1

theorem node?_eq (store : Store) (place : List String) :
    store.node? place =
      (store.stored? place).or
        (if place.isEmpty || store.leads place then some .directory else none) := by
  unfold node? stored? leads
  cases store.nodes.find? fun entry => entry.1 == place <;> rfl

/-- What is put somewhere replaces what was put there before. -/
theorem stored?_put (store : Store) (place : List String) (node : Node) (other : List String) :
    (store.put place node).stored? other =
      if other = place then some node else store.stored? other := by
  unfold put stored?
  split
  case isTrue hany =>
    have hkey : ((fun entry : List String × Node => entry.1 == other) ∘
        fun entry => if entry.1 == place then (place, node) else entry) =
        fun entry => entry.1 == other := by
      funext entry
      by_cases h : entry.1 = place <;> simp [h]
    rw [List.find?_map, hkey]
    split
    case isTrue hother =>
      obtain ⟨entry, hentry, heq⟩ := List.any_eq_true.mp hany
      cases hfound : store.nodes.find? fun entry => entry.1 == other with
      | none => exact absurd heq (by simpa [hother] using List.find?_eq_none.mp hfound entry hentry)
      | some found =>
        have hplace : found.1 = place := by simpa [hother] using List.find?_some hfound
        simp [hplace]
    case isFalse hother =>
      cases hfound : store.nodes.find? fun entry => entry.1 == other with
      | none => rfl
      | some found =>
        have hplace : found.1 = other := by simpa using List.find?_some hfound
        simp [hplace, hother]
  case isFalse hany =>
    rw [List.find?_append]
    split
    case isTrue hother =>
      have hnone : (store.nodes.find? fun entry => entry.1 == other) = none := by
        rw [hother]
        refine List.find?_eq_none.mpr fun entry hentry heq => hany ?_
        exact List.any_eq_true.mpr ⟨entry, hentry, heq⟩
      rw [hnone]
      simp [hother]
    case isFalse hother =>
      have hne : (place == other) = false := by simpa using fun h => hother h.symm
      simp [hne]

/-- A put leads to its place, and what led further down does so still. -/
theorem leads_put (store : Store) (place : List String) (node : Node) (other : List String) :
    (store.put place node).leads other = (store.leads other || other.isPrefixOf place) := by
  unfold put leads
  split
  case isTrue hany =>
    have hkey : ((fun entry : List String × Node => other.isPrefixOf entry.1) ∘
        fun entry => if entry.1 == place then (place, node) else entry) =
        fun entry => other.isPrefixOf entry.1 := by
      funext entry
      by_cases h : entry.1 = place <;> simp [h]
    obtain ⟨entry, hentry, heq⟩ := List.any_eq_true.mp hany
    rw [List.any_map, hkey]
    cases hpre : other.isPrefixOf place with
    | false => rw [Bool.or_false]
    | true =>
      rw [Bool.or_true]
      refine List.any_eq_true.mpr ⟨entry, hentry, ?_⟩
      rw [eq_of_beq heq]
      exact hpre
  case isFalse => simp

/-- Behind a put there stands what was put, what stood there before, or a directory on the
way to it. -/
theorem node?_put (store : Store) (place : List String) (node : Node) (other : List String) :
    (store.put place node).node? other =
      if other = place then some node
      else (store.node? other).or (if other <+: place then some .directory else none) := by
  rw [node?_eq, stored?_put, leads_put, node?_eq]
  split
  · rfl
  · cases store.stored? other with
    | some found => rfl
    | none =>
      have hpre : other.isPrefixOf place = decide (other <+: place) := by
        rw [Bool.eq_iff_iff, List.isPrefixOf_iff_prefix, decide_eq_true_iff]
      rw [hpre]
      cases other.isEmpty <;> cases store.leads other <;> simp

/-- A store in which every directory stands in a directory. The top stands in itself, so it
is one. -/
def IsTree (store : Store) : Prop :=
  ∀ place, store.node? place = some .directory → store.node? place.dropLast = some .directory

/-- Everything on the way to a directory is a directory. -/
theorem IsTree.upward (h : store.IsTree) (hp : store.node? place = some .directory)
    (hpre : other <+: place) : store.node? other = some .directory := by
  obtain ⟨rest, rfl⟩ := hpre
  induction rest using List.reverseRecOn with
  | nil => rwa [List.append_nil] at hp
  | append_singleton rest name ih =>
    have hup := h _ hp
    rw [← List.append_assoc, List.dropLast_concat] at hup
    exact ih hup

/-- What stands in front of a place, and is not all of it, leads to the place above. -/
theorem prefix_dropLast (hpre : other <+: place) (hne : other ≠ place) :
    other <+: place.dropLast := by
  cases place using List.reverseRecOn with
  | nil => exact absurd (List.prefix_nil.mp hpre) hne
  | append_singleton front name =>
    rw [List.dropLast_concat]
    exact (List.prefix_concat_iff.mp hpre).resolve_left hne

/-- What is put into a directory keeps a tree, unless it replaces a directory. -/
theorem IsTree.put (h : store.IsTree) (hplace : store.node? place ≠ some .directory)
    (habove : store.node? place.dropLast = some .directory) (node : Node) :
    (store.put place node).IsTree := by
  have hkeep {other : List String} (hdir : store.node? other = some .directory) :
      (store.put place node).node? other = some .directory := by
    have hne : other ≠ place := fun heq => hplace (heq ▸ hdir)
    rw [node?_put, if_neg hne, hdir]
    rfl
  intro other hother
  rw [node?_put] at hother
  split at hother
  case isTrue heq => exact hkeep (heq ▸ habove)
  case isFalse hne =>
    cases hbefore : store.node? other with
    | some found =>
      rw [hbefore] at hother
      exact hkeep (h other (hbefore.trans hother))
    | none =>
      -- a new directory on the way to the place would stand above the directory there
      rw [hbefore, Option.none_or] at hother
      split at hother
      case isFalse => cases hother
      case isTrue hpre =>
        rw [h.upward habove (prefix_dropLast hpre hne)] at hbefore
        cases hbefore

/-- The store with nothing but its home directory is a tree. -/
theorem isTree_empty : empty.IsTree := by
  intro place hplace
  match place with
  | [] => rfl
  | [_] => rfl
  | name :: second :: rest =>
    have hnone : empty.node? (name :: second :: rest) = none := by
      simp [node?, empty, home, List.isPrefixOf]
    rw [hnone] at hplace
    cases hplace

/-- Going one step on leads from a directory to itself, to the one above or to a place in
it. -/
theorem step_eq_ok {name : String} {next : List String} (h : store.step place name = .ok next) :
    store.node? place = some .directory ∧
      ((name = "" ∨ name = ".") ∧ next = place ∨ name = ".." ∧ next = place.dropLast ∨
        (name ≠ "" ∧ name ≠ "." ∧ name ≠ "..") ∧ next = place ++ [name]) := by
  unfold step at h
  split at h
  · cases h
  · cases h
  · rename_i hplace
    refine ⟨hplace, ?_⟩
    split at h
    · rename_i hname
      cases h
      exact .inl ⟨by simpa using hname, rfl⟩
    rename_i hname
    split at h
    · rename_i hup
      cases h
      exact .inr (.inl ⟨by simpa using hup, rfl⟩)
    rename_i hup
    split at h
    · cases h
    · cases h
      have hreal : name ≠ "" ∧ name ≠ "." := by simpa using hname
      exact .inr (.inr ⟨⟨hreal.1, hreal.2, by simpa using hup⟩, rfl⟩)

/-- Directories stay directories from one store to the next. -/
def Grows (before after : Store) : Prop :=
  ∀ place, before.node? place = some .directory → after.node? place = some .directory

/-- A step that can be taken is taken in the same way from there on. -/
theorem Grows.step {before after : Store} (h : before.Grows after) {name : String}
    {next : List String} (hs : before.step place name = .ok next) :
    after.step place name = .ok next := by
  have hplace := (step_eq_ok hs).1
  unfold Store.step at hs ⊢
  rw [hplace] at hs
  rw [h place hplace]
  exact hs

/-- So is a walk. -/
theorem Grows.walk {before after : Store} (h : before.Grows after) {names : List String}
    {last : List String} (hw : before.walk place names = .ok last) :
    after.walk place names = .ok last := by
  induction names generalizing place with
  | nil => exact hw
  | cons name names ih =>
    unfold Store.walk at hw ⊢
    split at hw
    case h_1 next hstep =>
      rw [h.step hstep]
      exact ih hw
    case h_2 => cases hw

/-- A path goes on leading where it led. -/
theorem Grows.resolve {before after : Store} (h : before.Grows after) {path : String}
    (hr : before.resolve path = .ok place) : after.resolve path = .ok place := by
  unfold Store.resolve at hr ⊢
  split at hr
  · cases hr
  split at hr
  · cases hr
  split at hr
  · cases hr
  · rename_i hzero hempty hlong
    rw [if_neg hzero, if_neg hempty, if_neg hlong]
    exact h.walk hr

/-- A walk by two lists of names is a walk by the one and then by the other. -/
theorem walk_append {names more : List String} :
    store.walk place (names ++ more) = (store.walk place names).bind (store.walk · more) := by
  induction names generalizing place with
  | nil => rfl
  | cons name names ih =>
    rw [List.cons_append, walk, walk]
    cases store.step place name with
    | ok next => exact ih
    | error e => rfl

/-- In a tree, what stands at the end of a walk stands in a directory. -/
theorem IsTree.above_of_step (h : store.IsTree) {name : String} {next : List String}
    (hs : store.step place name = .ok next) : store.node? next.dropLast = some .directory := by
  obtain ⟨hplace, ⟨-, rfl⟩ | ⟨-, rfl⟩ | ⟨-, rfl⟩⟩ := step_eq_ok hs
  · exact h _ hplace
  · exact h _ (h _ hplace)
  · rwa [List.dropLast_concat]

/-- A path of a fair length without zero characters is walked name by name. -/
theorem resolve_eq {path : String} (hzero : '\x00' ∉ path.toList) (hempty : path.isEmpty = false)
    (hlong : path.utf8ByteSize ≤ pathLimit) :
    store.resolve path =
      store.walk (if path.toList.head? == some '/' then [] else home) (Path.names path) := by
  have hcontains : path.contains '\x00' = false := by
    rw [String.contains_char_eq, decide_eq_false hzero]
  rw [resolve, hcontains, hempty, if_neg (by decide), if_neg (by decide), if_neg (by omega)]

/-- Where the last name of a path is looked up, which its front alone decides. -/
def folder (store : Store) (front : List Char) : Except FileError (List String) :=
  store.walk (if front.head? == some '/' then [] else home) (Path.namesBefore front)

/-- A path leads one step further than its front, by its last name. -/
theorem exists_folder {path : String} {front name : List Char} (h : Path.Ends path front name)
    (hr : store.resolve path = .ok place) :
    ∃ above, store.folder front = .ok above ∧
      store.step above (String.ofList name) = .ok place := by
  unfold resolve at hr
  split at hr
  · cases hr
  split at hr
  · cases hr
  split at hr
  · cases hr
  rw [h.names_eq, h.head?_eq, walk_append] at hr
  change (store.folder front).bind (store.walk · [String.ofList name]) = .ok place at hr
  cases hfolder : store.folder front with
  | error e =>
    rw [hfolder] at hr
    cases hr
  | ok above =>
    rw [hfolder] at hr
    refine ⟨above, rfl, ?_⟩
    cases hs : store.step above (String.ofList name) with
    | error e => simp [Except.bind, walk, hs] at hr
    | ok next => simpa [Except.bind, walk, hs] using hr

/-- A path leads to a place in a directory. -/
theorem IsTree.above_of_resolve (h : store.IsTree) {path : String}
    (hr : store.resolve path = .ok place) : store.node? place.dropLast = some .directory := by
  obtain ⟨front, name, hends⟩ := Path.exists_ends path
  obtain ⟨above, -, hs⟩ := exists_folder hends hr
  exact h.above_of_step hs

/-- The last name of a path that leads to no directory is the name of a file in the folder
of the path. -/
theorem IsTree.exists_file (h : store.IsTree) {path : String} {front name : List Char}
    (hends : Path.Ends path front name) (hr : store.resolve path = .ok place)
    (hfile : store.node? place ≠ some .directory) :
    Path.isFileName name ∧
      ∃ above, store.folder front = .ok above ∧ place = above ++ [String.ofList name] := by
  obtain ⟨above, hfolder, hs⟩ := exists_folder hends hr
  obtain ⟨habove, ⟨-, rfl⟩ | ⟨-, rfl⟩ | ⟨⟨hempty, hdot, hup⟩, hplace⟩⟩ := step_eq_ok hs
  · exact absurd habove hfile
  · exact absurd (h _ habove) hfile
  · refine ⟨?_, above, hfolder, hplace⟩
    have hne {other : List Char} (hname : String.ofList name ≠ String.ofList other) :
        name ≠ other := fun heq => hname (heq ▸ rfl)
    have h1 : name ≠ [] := hne hempty
    have h2 : name ≠ ['.'] := hne hdot
    have h3 : name ≠ ['.', '.'] := hne hup
    simp [Path.isFileName, h1, h2, h3]

/-- Two files in one folder are in the same place exactly if they have the same name. -/
theorem IsTree.place_eq_iff (h : store.IsTree) {path second : String}
    {front name next : List Char} (hends : Path.Ends path front name)
    (hsecond : Path.Ends second front next) (hr : store.resolve path = .ok place)
    (hr2 : store.resolve second = .ok other) (hfile : store.node? place ≠ some .directory)
    (hfile2 : store.node? other ≠ some .directory) : place = other ↔ name = next := by
  obtain ⟨-, above, hfolder, rfl⟩ := h.exists_file hends hr hfile
  obtain ⟨-, above2, hfolder2, rfl⟩ := h.exists_file hsecond hr2 hfile2
  cases hfolder.symm.trans hfolder2
  rw [List.append_cancel_left_eq, List.cons.injEq, String.ofList_inj]
  simp

/-- What can be read is what stands in the file that the path leads to. -/
theorem read_eq_ok {path : String} {contents : Bytes} :
    store.read path = .ok contents ↔
      ∃ place, store.resolve path = .ok place ∧ store.node? place = some (.file contents) := by
  unfold read
  cases store.resolve path with
  | error e => simp
  | ok place =>
    cases hnode : store.node? place with
    | none => simp [hnode]
    | some node => cases node <;> simp [hnode]

/-- A write comes to an end if its path leads to a place without a directory. -/
theorem write_eq_ok {before after : Store} {path : String} {contents : Bytes} :
    before.write path contents = .ok after ↔
      ∃ place, before.resolve path = .ok place ∧ before.node? place ≠ some .directory ∧
        before.put place (.file contents) = after := by
  unfold write
  cases before.resolve path with
  | error e => simp
  | ok place => by_cases hdir : before.node? place = some .directory <;> simp [hdir]

/-- What a write leaves behind, by the store in front of it. -/
structure Wrote (before after : Store) (path : String) (contents : Bytes) (place : List String) :
    Prop where
  /-- The path leads to the place. -/
  resolve : after.resolve path = .ok place
  /-- The contents stand there. -/
  contents : after.node? place = some (.file contents)
  /-- Directories stay directories. -/
  grows : before.Grows after
  /-- Files at other places keep their contents. -/
  keeps : ∀ {other kept}, other ≠ place → before.node? other = some (.file kept) →
    after.node? other = some (.file kept)
  /-- A tree stays one. -/
  isTree : before.IsTree → after.IsTree
  /-- A tree gets no new directories. -/
  directories : before.IsTree → after.Grows before

/-- A file that is put where its path leads is what a write leaves behind. -/
theorem wrote_put {before : Store} {path : String} (hr : before.resolve path = .ok place)
    (hfile : before.node? place ≠ some .directory) (contents : Bytes) :
    Wrote before (before.put place (.file contents)) path contents place := by
  have hgrows : before.Grows (before.put place (.file contents)) := by
    intro other hother
    have hne : other ≠ place := fun heq => hfile (heq ▸ hother)
    rw [node?_put, if_neg hne, hother]
    rfl
  refine ⟨hgrows.resolve hr, by rw [node?_put, if_pos rfl], hgrows, ?_, ?_, ?_⟩
  · intro other kept hne hother
    rw [node?_put, if_neg hne, hother]
    rfl
  · intro htree
    exact htree.put hfile (htree.above_of_resolve hr) _
  · intro htree other hother
    rw [node?_put] at hother
    split at hother
    case isTrue => cases hother
    case isFalse hne =>
      cases hbefore : before.node? other with
      | some found =>
        rw [hbefore] at hother
        exact hother
      | none =>
        rw [hbefore, Option.none_or] at hother
        split at hother
        case isFalse => cases hother
        case isTrue hpre =>
          have hup := htree.upward (htree.above_of_resolve hr) (prefix_dropLast hpre hne)
          rw [hbefore] at hup
          cases hup

namespace Wrote

variable {before after : Store} {path : String} {contents : Bytes}

/-- There is a file where the path leads. -/
theorem is_file (h : Wrote before after path contents place) :
    after.node? place ≠ some .directory := by
  rw [h.contents]
  simp

/-- What is no directory in a tree does not become one. -/
theorem not_directory (h : Wrote before after path contents place) (htree : before.IsTree)
    (hother : before.node? other ≠ some .directory) : after.node? other ≠ some .directory :=
  fun hdir => hother (h.directories htree other hdir)

/-- A file that is written somewhere else can be read as before. -/
theorem read_of_ne (h : Wrote before after path contents place) {elsewhere : String}
    {kept : Bytes} (hread : before.read elsewhere = .ok kept)
    (hne : after.resolve elsewhere ≠ .ok place) : after.read elsewhere = .ok kept := by
  obtain ⟨other, hresolve, hnode⟩ := read_eq_ok.mp hread
  have hafter := h.grows.resolve hresolve
  refine read_eq_ok.mpr ⟨other, hafter, h.keeps ?_ hnode⟩
  rintro rfl
  exact hne hafter

/-- What was written can be read. -/
theorem read (h : Wrote before after path contents place) : after.read path = .ok contents :=
  read_eq_ok.mpr ⟨place, h.resolve, h.contents⟩

/-- A file stays a file. -/
theorem isFile (h : Wrote before after path contents place) {kept : Bytes}
    (hnode : before.node? other = some (.file kept)) :
    ∃ now, after.node? other = some (.file now) := by
  by_cases heq : other = place
  · exact ⟨contents, heq ▸ h.contents⟩
  · exact ⟨kept, h.keeps heq hnode⟩

/-- What could be read can be read, though perhaps with other contents. -/
theorem exists_read (h : Wrote before after path contents place) {elsewhere : String}
    {kept : Bytes} (hread : before.read elsewhere = .ok kept) :
    ∃ now, after.read elsewhere = .ok now := by
  obtain ⟨other, hresolve, hnode⟩ := read_eq_ok.mp hread
  obtain ⟨now, hnow⟩ := h.isFile hnode
  exact ⟨now, read_eq_ok.mpr ⟨other, h.grows.resolve hresolve, hnow⟩⟩

end Wrote

/-- A path that leads to a place without a directory. -/
def Writable (store : Store) (path : String) : Prop :=
  ∃ place, store.resolve path = .ok place ∧ store.node? place ≠ some .directory

/-- What could be written can be written behind another write. -/
theorem Wrote.writable {before after : Store} {path other : String} {contents : Bytes}
    (h : Wrote before after path contents place) (htree : before.IsTree)
    (hother : before.Writable other) : after.Writable other := by
  obtain ⟨target, hr, hfile⟩ := hother
  exact ⟨target, h.grows.resolve hr, h.not_directory htree hfile⟩

section Disk

variable {α β : Type}

/-- One action behind another starts from what the other left behind. -/
theorem run_bind {σ : Type} (action : StateM σ α) (next : α → StateM σ β) (before : σ) :
    (action >>= next).run before =
      (next (action.run before).1).run (action.run before).2 := rfl

/-- The text that was written to a file is read from it. -/
theorem readText_run {σ : Type} {disk : Disk (StateM σ)} {state : σ} {path text : String}
    (h : (disk.read path).run state = (.ok (bytesOf text), state)) :
    (disk.readText path).run state = (.ok text, state) := by
  rw [Disk.readText, run_bind, h]
  simp only
  rw [fromUTF8?_bytesOf]
  rfl

/-- A write either puts the contents where the path leads or, where it cannot be written,
changes nothing. -/
theorem disk_write_cases (before : Store) (path : String) (contents : Bytes) :
    (¬ before.Writable path ∧ ∃ e, (disk.write path contents).run before = (.error e, before)) ∨
      ∃ after place, (disk.write path contents).run before = (.ok (), after) ∧
        Wrote before after path contents place := by
  have hget : (get : StateM Store Store).run before = (before, before) := rfl
  cases hwrite : before.write path contents with
  | error e =>
    refine .inl ⟨?_, e, ?_⟩
    · rintro ⟨place, hr, hfile⟩
      have hok : before.write path contents = .ok _ := write_eq_ok.mpr ⟨place, hr, hfile, rfl⟩
      rw [hwrite] at hok
      cases hok
    · rw [disk, run_bind, hget]
      simp only [hwrite]
      rfl
  | ok after =>
    have hrun : (disk.write path contents).run before = (.ok (), after) := by
      rw [disk, run_bind, hget]
      simp only [hwrite]
      rfl
    obtain ⟨place, hr, hfile, rfl⟩ := write_eq_ok.mp hwrite
    exact .inr ⟨_, place, hrun, wrote_put hr hfile contents⟩

/-- An action that only looks at the files. -/
def Looks (action : StateM Store α) : Prop := ∀ before, (action.run before).2 = before

theorem looks_pure (value : α) : Looks (pure value : StateM Store α) := fun _ => rfl

theorem Looks.bind {action : StateM Store α} {next : α → StateM Store β} (h : Looks action)
    (hnext : ∀ value, Looks (next value)) : Looks (action >>= next) := by
  intro before
  rw [run_bind, hnext, h]

theorem looks_readText (path : String) : Looks (disk.readText path) := by
  refine Looks.bind (fun _ => rfl) fun outcome => ?_
  split
  · exact looks_pure _
  · split <;> exact looks_pure _

end Disk

end FormatScan.Store
