import FormatScan.Files.Disk
import FormatScan.Files.Path

/-!
# A tree of files in memory

A store maps places, which are lists of names from the top of the tree, to what
stands there. Directories are there because something is in them, or because
they were made. Paths are walked name by name from a home directory, or from the
top when they start with a slash, and only a directory can be walked through. A
store offers the same operations as a disk.
-/

namespace FormatScan

/-- What stands at a place. -/
inductive Node where
  /-- A file. -/
  | file (contents : Bytes)
  /-- A directory that was made. -/
  | directory
deriving DecidableEq, Repr

/-- A tree of files, as its places and what stands there. -/
structure Store where
  /-- The places, as lists of names from the top, with what stands there. -/
  nodes : List (List String × Node)
deriving Repr

namespace Store

/-- The directory that paths are walked from. Its name is empty, so that no path
can name it. -/
def home : List String := [""]

/-- What stands at a place. -/
def node? (store : Store) (place : List String) : Option Node :=
  match store.nodes.find? fun entry => entry.1 == place with
  | some entry => some entry.2
  | none =>
    if place.isEmpty || store.nodes.any fun entry => place.isPrefixOf entry.1 then some .directory
    else none

/-- The greatest number of bytes in a name. -/
def nameLimit : Nat := 255

/-- The greatest number of bytes in a path. -/
def pathLimit : Nat := 4095

/-- Walk on by one name. A single dot, or no name at all between two slashes,
stands for the directory it is in, and two dots stand for the one above, which
at the top is the top itself. -/
def step (store : Store) (place : List String) (name : String) :
    Except FileError (List String) :=
  match store.node? place with
  | none => .error .notFound
  | some (.file _) => .error .notDirectory
  | some .directory =>
    if name == "" || name == "." then .ok place
    else if name == ".." then .ok place.dropLast
    else if nameLimit < name.utf8ByteSize then .error .nameTooLong
    else .ok (place ++ [name])

/-- Walk on by a list of names. -/
def walk (store : Store) (place : List String) : List String → Except FileError (List String)
  | [] => .ok place
  | name :: rest =>
    match store.step place name with
    | .ok next => store.walk next rest
    | .error error => .error error

/-- The place that a path leads to, whether or not something stands there. A
slash at the end of a path asks for a directory. -/
def resolve (store : Store) (path : String) : Except FileError (List String) :=
  if path.contains '\x00' then .error .zeroInName
  else if path.isEmpty then .error .notFound
  else if pathLimit < path.utf8ByteSize then .error .nameTooLong
  else store.walk (if path.toList.head? == some '/' then [] else home) (Path.names path)

/-- The contents of a file. -/
def read (store : Store) (path : String) : Except FileError Bytes :=
  match store.resolve path with
  | .error error => .error error
  | .ok place =>
    match store.node? place with
    | none => .error .notFound
    | some .directory => .error .isDirectory
    | some (.file contents) => .ok contents

/-- Put something at a place. -/
def put (store : Store) (place : List String) (node : Node) : Store :=
  if store.nodes.any fun entry => entry.1 == place then
    ⟨store.nodes.map fun entry => if entry.1 == place then (place, node) else entry⟩
  else ⟨store.nodes ++ [(place, node)]⟩

/-- Replace the contents of a file. -/
def write (store : Store) (path : String) (contents : Bytes) : Except FileError Store :=
  match store.resolve path with
  | .error error => .error error
  | .ok place =>
    if store.node? place == some .directory then .error .isDirectory
    else .ok (store.put place (.file contents))

/-- The names in a directory. -/
def list (store : Store) (path : String) : Except FileError (List String) :=
  match store.resolve path with
  | .error error => .error error
  | .ok place =>
    match store.node? place with
    | none => .error .notFound
    | some (.file _) => .error .notDirectory
    | some .directory =>
      .ok ((store.nodes.filterMap fun entry =>
        if place.isPrefixOf entry.1 then (entry.1.drop place.length).head? else none).eraseDups)

/-- The store with nothing but its home directory. -/
def empty : Store := ⟨[(home, .directory)]⟩

/-- A store with files at some paths below its home directory, and directories
where no contents are given. -/
def ofFiles (files : List (String × Option Bytes)) : Store :=
  files.foldl (fun store (path, contents) =>
    let names := (Path.names path).filter fun name => name != "" && name != "."
    store.put (home ++ names) (match contents with
      | some bytes => .file bytes
      | none => .directory)) empty

/-- The operations of a store as a disk. -/
def disk : Disk (StateM Store) where
  read path := do return (← get).read path
  write path contents := do
    match (← get).write path contents with
    | .ok store => set store; return .ok ()
    | .error e => return .error e
  list path := do return (← get).list path

end Store

end FormatScan
