import JniLink.File.Path
import JniLink.Text.Utf8

/-!
# File trees

The files and directories under a root, and the operations on them that paths name. A place in the
tree is the list of names from the root to it; a path is walked name by name, and every name but the
last must be that of a directory. There are no links, so a place has one name. Names and paths have
a greatest length, and a text with a NUL is no path at all.

`node?` is the view of a tree: every operation is said by what it does to it.
-/

namespace JniLink

open JniLink.Text

/-- What calling an exported function answers: the bytes of a text, which end at the first NUL, or
nothing. -/
abbrev Answer := Option (List UInt8)

/-- A library image: its exported functions. -/
structure Image where
  exports : List (String × Answer)
  deriving DecidableEq, Repr, Inhabited

/-- What a file holds: bytes, or the image of a library. -/
inductive Content where
  | bytes (data : List UInt8)
  | image (image : Image)
  deriving DecidableEq, Repr

/-- Why an operation on files fails. -/
inductive FileFault where
  | missing
  | exists
  | notDirectory
  | isDirectory
  /-- The path, or a name in it, has too many bytes. -/
  | nameTooLong
  /-- There is a NUL in the path. -/
  | nulInName
  /-- The file is not UTF-8. -/
  | notText
  deriving DecidableEq, Repr

/-- The wording of a fault. -/
def FileFault.message : FileFault → String
  | .missing => "No such file or directory (os error 2)"
  | .exists => "File exists (os error 17)"
  | .notDirectory => "Not a directory (os error 20)"
  | .isDirectory => "Is a directory (os error 21)"
  | .nameTooLong => "File name too long (os error 36)"
  | .nulInName => "file name contained an unexpected NUL byte"
  | .notText => "stream did not contain valid UTF-8"

/-- The most bytes that the name of a file may have. -/
def longestName : Nat := 255

/-- The most bytes that a path may have. -/
def longestPath : Nat := 4095

/-- Whether a part of a path has too many bytes to be the name of a file. -/
def isTooLong (part : List Char) : Bool :=
  longestName < (Utf8.encode part).length

/-- Why a path cannot name anything, whatever there is. -/
def Path.fault? (p : Path) : Option FileFault :=
  if p.text = "" then some .missing
  else if '\x00' ∈ p.text.toList then some .nulInName
  else if longestPath < p.text.utf8ByteSize then some .nameTooLong
  else none

/-- A place in a tree: the names from the root to it. -/
abbrev Place := List String

/-- A file or a directory. -/
inductive Node where
  | directory
  | file (content : Content)
  deriving DecidableEq, Repr

/-- The nodes below a root; the first entry of a place counts. -/
structure FileTree where
  nodes : List (Place × Node)
  deriving DecidableEq, Repr, Inhabited

namespace FileTree

/-- A tree without files. -/
def empty : FileTree := ⟨[]⟩

/-- What stands at a place; the root is a directory. -/
def node? (t : FileTree) (p : Place) : Option Node :=
  if p = [] then some .directory else (t.nodes.find? (·.1 = p)).map (·.2)

/-- Whether a directory stands at a place. -/
def isDirectoryAt (t : FileTree) (p : Place) : Bool :=
  t.node? p == some .directory

/-- Puts a node at a place, whatever stood there. -/
def put (t : FileTree) (p : Place) (n : Node) : FileTree :=
  ⟨(p, n) :: t.nodes.filter (·.1 ≠ p)⟩

/-- The view after a node was put. -/
theorem node?_put (t : FileTree) (p q : Place) (n : Node) (hp : p ≠ []) :
    (t.put p n).node? q = if q = p then some n else t.node? q := by
  unfold node? put
  by_cases hq : q = []
  · subst hq
    simp [Ne.symm hp]
  · by_cases h : q = p
    · simp [h, hp]
    · have : ∀ l : List (Place × Node), (l.filter (·.1 ≠ p)).find? (·.1 = q) = l.find? (·.1 = q) := by
        intro l
        rw [List.find?_filter]
        congr 1
        funext x
        by_cases hx : x.1 = q
        · simp [hx, h]
        · simp [hx]
      simp only [hq, h, if_false, List.find?_cons, Ne.symm h, decide_false, this]

/-- Walks the parts of a path from a place. -/
def walk (t : FileTree) : Place → List (List Char) → Except FileFault Place
  | here, [] => .ok here
  | here, part :: parts =>
    match t.node? here with
    | none => .error .missing
    | some (.file _) => .error .notDirectory
    | some .directory =>
      if Path.isIdle part then walk t here parts
      else if part = ['.', '.'] then walk t here.dropLast parts
      else if isTooLong part then .error .nameTooLong
      else
        let next := here ++ [String.ofList part]
        if (t.node? next).isSome then walk t next parts else .error .missing

/-- The place at which walking a path begins. -/
def base (cwd : Place) (p : Path) : Place :=
  if p.isAbsolute then [] else cwd

/-- The place of something that a path names and that is there. -/
def locate (t : FileTree) (cwd : Place) (p : Path) : Except FileFault Place :=
  match p.fault? with
  | some fault => .error fault
  | none => t.walk (base cwd p) p.parts

/-- What a path names. -/
def find? (t : FileTree) (cwd : Place) (p : Path) : Option Node :=
  match t.locate cwd p with
  | .ok place => t.node? place
  | .error _ => none

/-- Whether a path names anything. -/
def contains (t : FileTree) (cwd : Place) (p : Path) : Bool :=
  (t.find? cwd p).isSome

/-- Whether a path names a file. -/
def isFile (t : FileTree) (cwd : Place) (p : Path) : Bool :=
  match t.find? cwd p with
  | some (.file _) => true
  | _ => false

/-- Whether a path names a directory. -/
def isDirectory (t : FileTree) (cwd : Place) (p : Path) : Bool :=
  t.find? cwd p == some .directory

/-- The content of a file. -/
def read (t : FileTree) (cwd : Place) (p : Path) : Except FileFault Content :=
  match t.locate cwd p with
  | .error fault => .error fault
  | .ok place =>
    match t.node? place with
    | some (.file content) => .ok content
    | some .directory => .error .isDirectory
    | none => .error .missing

/-- The text of a file; the image of a library is none. -/
def readText (t : FileTree) (cwd : Place) (p : Path) : Except FileFault String :=
  match t.read cwd p with
  | .error fault => .error fault
  | .ok (.image _) => .error .notText
  | .ok (.bytes data) => (Utf8.decode data).mapError fun _ => .notText

/-- The parts of a path without the empty ones at its end. -/
def solidParts (p : Path) : List (List Char) :=
  (p.parts.reverse.dropWhile (· = [])).reverse

/-- Walks to the directory that is to hold what a path names, and answers it with the last part of
the path; none if the path names its start or nothing. -/
def parentOf (t : FileTree) (cwd : Place) (p : Path) :
    Except FileFault (Option (Place × List Char)) :=
  match p.fault? with
  | some fault => .error fault
  | none =>
    match (solidParts p).getLast? with
    | none => .ok none
    | some last =>
      match t.walk (base cwd p) (solidParts p).dropLast with
      | .error fault => .error fault
      | .ok here =>
        match t.node? here with
        | some .directory => .ok (some (here, last))
        | some (.file _) => .error .notDirectory
        | none => .error .missing

/-- A part that names a directory by where it is. -/
def isDots (part : List Char) : Bool := part == ['.'] || part == ['.', '.']

/-- The place at which a file with the name of a path is written. -/
def filePlace (t : FileTree) (cwd : Place) (p : Path) : Except FileFault Place :=
  match t.parentOf cwd p with
  | .error fault => .error fault
  | .ok none => .error .isDirectory
  | .ok (some (here, last)) =>
    let place := here ++ [String.ofList last]
    if isDots last || p.text.toList.getLast? == some '/' then .error .isDirectory
    else if isTooLong last then .error .nameTooLong
    else if t.isDirectoryAt place then .error .isDirectory
    else .ok place

/-- Writes a file, over an earlier one if there is one; its directory must be there. -/
def write (t : FileTree) (cwd : Place) (p : Path) (content : Content) :
    Except FileFault FileTree :=
  match t.filePlace cwd p with
  | .error fault => .error fault
  | .ok place => .ok (t.put place (.file content))

/-- Writes a text file. -/
def writeText (t : FileTree) (cwd : Place) (p : Path) (text : String) :
    Except FileFault FileTree :=
  t.write cwd p (.bytes (Utf8.encode text.toList))

/-- Makes one directory in a directory that is there. -/
def makeDirectory (t : FileTree) (cwd : Place) (p : Path) : Except FileFault FileTree :=
  match t.parentOf cwd p with
  | .error fault => .error fault
  | .ok none => .error .exists
  | .ok (some (here, last)) =>
    let place := here ++ [String.ofList last]
    if isDots last then .error .exists
    else if isTooLong last then .error .nameTooLong
    else if (t.node? place).isSome then .error .exists
    else .ok (t.put place .directory)

/-- Makes the directories of a list of paths, each the parent of the one before it, as far as they
are missing. A fault comes with the tree that it leaves, for what was made before it stays. -/
def makeChain (t : FileTree) (cwd : Place) : List Path → Except (FileFault × FileTree) FileTree
  | [] => .error (.missing, t)
  | p :: parents =>
    if p.text = "" then .ok t
    else
      match t.makeDirectory cwd p with
      | .ok t => .ok t
      | .error .missing =>
        match makeChain t cwd parents with
        | .error e => .error e
        | .ok t =>
          match t.makeDirectory cwd p with
          | .ok t => .ok t
          | .error fault => if t.isDirectory cwd p then .ok t else .error (fault, t)
      | .error fault => if t.isDirectory cwd p then .ok t else .error (fault, t)

/-- Makes a directory and those above it, as far as they are missing. -/
def makeDirectories (t : FileTree) (cwd : Place) (p : Path) :
    Except (FileFault × FileTree) FileTree :=
  t.makeChain cwd p.ancestors

/-- Copies a file. A file that is copied onto itself is emptied before it is read. -/
def copy (t : FileTree) (cwd : Place) (source target : Path) : Except FileFault FileTree :=
  match t.locate cwd source, t.read cwd source with
  | .ok origin, .ok content =>
    match t.filePlace cwd target with
    | .error fault => .error fault
    | .ok place =>
      if place = origin then .ok (t.put place (.file (.bytes [])))
      else .ok (t.put place (.file content))
  | .error fault, _ => .error fault
  | .ok _, .error fault => .error fault

end FileTree

end JniLink
