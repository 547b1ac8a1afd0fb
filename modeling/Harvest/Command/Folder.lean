import Harvest.Executor.Basic

/-! Files below one folder. A path names a file through the folders that hold it, and those are
there as long as they hold a file.
-/

namespace Harvest

/-- The files below a folder: the names on the way to each, and its text. -/
abbrev Folder := List (List String × String)

namespace Folder

/-- The names on the way that a path describes. -/
def steps (path : String) : List String :=
  ((path.toList.splitOn '/').map String.ofList).filter fun name => !(name.isEmpty || name == ".")

/-- The folder of some files by their paths. -/
def ofFiles (files : List (String × String)) : Folder :=
  files.map fun (path, text) => (steps path, text)

/-- A folder stands there. -/
def hasFolder (folder : Folder) (way : List String) : Bool :=
  way.isEmpty || folder.any fun (file, _) => way.isPrefixOf file && way != file

/-- A file stands there. -/
def hasFile (folder : Folder) (way : List String) : Bool := folder.any (·.1 == way)

/-- Why nothing is found on a way. -/
def absence (folder : Folder) (way : List String) : FileError :=
  if folder.any fun (file, _) => file.isPrefixOf way then .notDirectory else .notFound

/-- The text of a file. -/
def read (folder : Folder) (path : String) : Except FileError String :=
  let way := steps path
  match folder.lookup way with
  | some text => if path.endsWith "/" then .error .notDirectory else .ok text
  | none => .error (if folder.hasFolder way then .isDirectory else folder.absence way)

/-- A file can be written there, or why it cannot. -/
def checkWrite (folder : Folder) (path : String) : Except FileError Unit :=
  let way := steps path
  if folder.hasFolder way || path.endsWith "/" then .error .isDirectory
  else if !folder.hasFolder way.dropLast then .error (folder.absence way.dropLast)
  else .ok ()

/-- The folder with a text in a file. -/
def write (folder : Folder) (path text : String) : Except FileError Folder := do
  folder.checkWrite path
  return (steps path, text) :: folder.filter (·.1 != steps path)

end Folder

end Harvest
