/-!
# Paths

A path is a string of names between slashes. Its file name is the last name in
it, apart from slashes and single dots at its end. The extension of a file name
is what stands behind its last dot, unless that dot is its first character.
-/

namespace FormatScan.Path

/-- The names in a path, between its slashes. -/
def names (path : String) : List String := (path.toList.splitOn '/').map String.ofList

/-- A path, last character first, without slashes and single dots at its end. -/
def withoutEnd : List Char → List Char
  | '/' :: rest => withoutEnd rest
  | '.' :: '/' :: rest => withoutEnd ('/' :: rest)
  | path => path

/-- A path split in front of its file name. The name is empty or made of dots
when the path has none. -/
def splitName (path : String) : List Char × List Char :=
  let back := withoutEnd path.toList.reverse
  let name := back.takeWhile (· != '/')
  ((back.drop name.length).reverse, name.reverse)

/-- Whether a name is a file name. -/
def isFileName (name : List Char) : Bool := name != [] && name != ['.'] && name != ['.', '.']

/-- A file name split at its extension. -/
def splitExtension (name : List Char) : List Char × Option (List Char) :=
  let extension := name.reverse.takeWhile (· != '.')
  let stem := (name.reverse.drop (extension.length + 1)).reverse
  if !isFileName name || stem.isEmpty then (name, none) else (stem, some extension.reverse)

/-- Whether a path names a file with an extension. -/
def hasExtension (path extension : String) : Bool :=
  (splitExtension (splitName path).2).2 == some extension.toList

/-- A path with another extension in place of its own. A path without a file
name is kept; and where nothing but two dots is left in front of the new
extension, they name the directory above and take no extension. -/
def withExtension (path extension : String) : String :=
  let (parent, name) := splitName path
  let stem := (splitExtension name).1
  if !isFileName name then path
  else if stem == ['.'] then String.ofList (parent ++ ['.', '.'])
  else String.ofList (parent ++ stem ++ '.' :: extension.toList)

/-- A name in a directory. -/
def join (directory name : String) : String :=
  if directory.isEmpty || directory.toList.getLast? == some '/' then directory ++ name
  else directory ++ "/" ++ name

end FormatScan.Path
