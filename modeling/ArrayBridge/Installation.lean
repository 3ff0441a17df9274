import ArrayBridge.Configuration

/-! Where a runtime is installed and which libraries are loaded before it
starts. -/

namespace ArrayBridge

/-- The directories of an installation and the libraries that were loaded. -/
structure Installation where
  home : Option String
  libraryPath : Option String
  libraries : List String
  deriving DecidableEq, Inhabited

namespace Path

def isAbsolute (path : String) : Bool := path.toList.head? = some '/'

/-- The number of parts of a relative path. Empty parts do not count, and a part
that is a single dot counts only at the start. -/
def partCount (path : String) : Nat :=
  let parts := path.toList.splitOn '/'
  let counted := (parts.drop 1).filter fun part => part ≠ [] ∧ part ≠ ['.']
  counted.length + if parts.head? = some [] then 0 else 1

/-- A relative path below a directory. -/
def join (directory path : String) : String :=
  if directory = "" ∨ directory.toList.getLast? = some '/' then directory ++ path
  else directory ++ "/" ++ path

end Path

namespace Installation

/-- The path under which a library is loaded. A relative path with several parts
is below the library directory, and so is a single name that exists there; any
other name is left to the system. -/
def resolveLibrary (files : FileSystem) (libraryPath : Option String) (library : String) : String :=
  match libraryPath with
  | none => library
  | some directory =>
    if Path.isAbsolute library then library
    else if 1 < Path.partCount library ∨ files.isPresent (Path.join directory library) then
      Path.join directory library
    else library

/-- Loads libraries in order. The first that does not load decides the failure. -/
def loadAll (files : FileSystem) (libraryPath : Option String) :
    List String → Except InitializationError (List String)
  | [] => .ok []
  | library :: libraries => do
    let path := resolveLibrary files libraryPath library
    if !files.canLoad path then throw (.library path)
    let rest ← loadAll files libraryPath libraries
    return path :: rest

/-- Prepares the installation that the settings describe. -/
def load (files : FileSystem) (settings : Configuration.Settings) :
    Except InitializationError Installation := do
  let libraries ← loadAll files settings.libraryPath settings.preload
  return ⟨settings.home.or files.installation, settings.libraryPath, libraries⟩

end Installation

end ArrayBridge
