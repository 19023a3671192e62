import JniLink.File.Tree

/-!
# The system a program runs on

Files, the working directory, the environment, the directory of the program itself, what the linker
knows of library files, and how many times a library was opened. The last one gives every opened
library an identity of its own: opening a file twice makes two libraries.
-/

namespace JniLink

/-- A library file that is open: where it is, and the path by which it was opened first, which is the
name that the linker knows it by. -/
structure LinkedFile where
  place : Place
  path : Path
  deriving DecidableEq, Repr, Inhabited

/-- What the linker knows of a library file. -/
inductive LinkerEntry where
  /-- It finds the file by this name, in one of its own directories or of those of its variable. -/
  | named (name : String) (path : Path)
  /-- The file is open. -/
  | opened (file : LinkedFile)
  deriving DecidableEq, Repr

/-- The system a program runs on. -/
structure System where
  files : FileTree
  workingPlace : Place
  environment : List (String × String)
  programDirectory : Path
  linker : List LinkerEntry
  opened : Nat
  deriving Repr, Inhabited

namespace System

/-- The value of an environment variable. -/
def environmentValue? (s : System) (name : String) : Option String :=
  (s.environment.find? (·.1 = name)).map (·.2)

/-- The working directory as an absolute path. -/
def workingDirectory (s : System) : Path :=
  ⟨"/" ++ "/".intercalate s.workingPlace⟩

/-- Whether a path names anything. -/
def contains (s : System) (p : Path) : Bool := s.files.contains s.workingPlace p

/-- Whether a path names a file. -/
def isFile (s : System) (p : Path) : Bool := s.files.isFile s.workingPlace p

/-- Whether a path names a directory. -/
def isDirectory (s : System) (p : Path) : Bool := s.files.isDirectory s.workingPlace p

/-- The text of a file. -/
def readText (s : System) (p : Path) : Except FileFault String :=
  s.files.readText s.workingPlace p

/-- The system with other files. -/
def withFiles (s : System) (files : FileTree) : System := { s with files }

/-- Makes the directories above a file, as far as they are missing. A fault is told with the path that
was to be made; what was made before it stays. -/
def makeAbove (s : System) (file : Path) : Except (Path × FileFault) Unit × System :=
  match file.parent? with
  | none => (.ok (), s)
  | some dir =>
    match s.files.makeDirectories s.workingPlace dir with
    | .ok files => (.ok (), s.withFiles files)
    | .error (fault, files) => (.error (dir, fault), s.withFiles files)

/-- The file that the linker finds by a name: the first one that it knows by it and that is there. -/
def named? (s : System) (name : String) : Option Path :=
  s.linker.findSome? fun
    | .named known path => if known = name ∧ s.isFile path then some path else none
    | .opened _ => none

/-- A library file as it is open, once it is opened by a path. -/
def linkedFile (s : System) (place : Place) (path : Path) : LinkedFile :=
  let opened? := s.linker.findSome? fun
    | .named .. => none
    | .opened file => if file.place = place then some file else none
  opened?.getD ⟨place, path⟩

/-- The system after one more library was opened. -/
def countOpened (s : System) : System := { s with opened := s.opened + 1 }

/-- The system after a library file was opened. -/
def keepOpen (s : System) (file : LinkedFile) : System :=
  { s with linker := s.linker ++ [.opened file] }

end System

end JniLink
