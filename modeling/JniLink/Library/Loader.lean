import JniLink.Library.Basic

/-!
# Finding libraries

A loader looks for the file of a library in its directories, the one added last first, and asks the
linker for the bare file name if none of them has it.
-/

namespace JniLink

/-- The directories in which libraries are looked for, in the order of the search. -/
structure Loader where
  searchPaths : List Path
  deriving DecidableEq, Repr, Inhabited

namespace Loader

/-- A loader without directories. -/
def empty : Loader := ⟨[]⟩

/-- The variable with directories of one's own. -/
def pathVariable : String := "RUSTJNI_LIBRARY_PATH"

/-- The directories in which the system keeps its libraries. -/
def systemPaths : List Path :=
  [⟨"/usr/local/lib"⟩, ⟨"/usr/lib"⟩, ⟨"/usr/lib64"⟩, ⟨"/lib"⟩, ⟨"/lib64"⟩]

/-- The directories of a variable; none if it is not set. -/
def variablePaths (s : System) (name : String) : List Path :=
  ((s.environmentValue? name).map Path.listOf).getD []

/-- The directories in which a loader looks unless it is told otherwise: one's own, the working
directory, that of the program, those of the linker's variable, and the system's. -/
def default (s : System) : Loader :=
  ⟨variablePaths s pathVariable ++ [s.workingDirectory, s.programDirectory] ++
    variablePaths s "LD_LIBRARY_PATH" ++ systemPaths⟩

/-- Looks in a directory before all others. -/
def add (l : Loader) (dir : Path) : Loader :=
  ⟨dir :: l.searchPaths⟩

/-- The file of a library in the first directory that has it. -/
def find? (l : Loader) (s : System) (name : String) : Option Path :=
  (l.searchPaths.map (· / Library.fileName name)).find? s.isFile

/-- Opens a library by its bare name. -/
def load (l : Loader) (s : System) (name : String) : Except LinkError Library :=
  match Library.validateName name with
  | .error e => .error e
  | .ok () =>
    Library.openAt s name ((l.find? s name).getD ⟨Library.fileName name⟩) true

/-- Opens the library at a path, which is also its name. -/
def loadPath (s : System) (path : Path) : Except LinkError Library :=
  Library.openAt s path.text path false

end Loader

end JniLink
