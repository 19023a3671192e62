import JniLink.Text.Search

/-!
# Paths

A path is a text whose parts stand between slashes. The text is kept as it was given: it is what
messages show and what is handed on. Empty parts, and a `.` that is not the first part, mean
nothing, and the operations that take a part off the end see past them.
-/

namespace JniLink

open JniLink.Text

/-- A path by its text. -/
structure Path where
  text : String
  deriving DecidableEq, Repr, Inhabited

namespace Path

/-- The empty path, which stands for the directory that paths are relative to. -/
def empty : Path := ⟨""⟩

/-- A path that begins at the root. -/
def isAbsolute (p : Path) : Bool :=
  p.text.toList.head? == some '/'

/-- A path read from a directory on. An absolute path stands for itself; otherwise one slash is put
between the two, unless the directory ends with one or is the empty path. -/
def join (dir p : Path) : Path :=
  if p.isAbsolute then p
  else
    let d := dir.text.toList
    if d = [] ∨ d.getLast? = some '/' then ⟨dir.text ++ p.text⟩
    else ⟨dir.text ++ "/" ++ p.text⟩

instance : HDiv Path String Path := ⟨fun dir name => dir.join ⟨name⟩⟩

/-- The parts between slashes behind the root, as they stand in the text. -/
def parts (p : Path) : List (List Char) :=
  splitWhere (· == '/') (if p.isAbsolute then p.text.toList.drop 1 else p.text.toList)

/-- A part that names nothing: an empty one, or a `.`. -/
def isIdle (part : List Char) : Bool := part == [] || part == ['.']

/-- Parts in reverse order without the idle ones at the end of the path. A `.` that is the only part
left of a relative path means something. -/
def dropIdle (absolute : Bool) : List (List Char) → List (List Char)
  | [] => []
  | [part] => if part = [] ∨ (absolute ∧ part = ['.']) then [] else [part]
  | part :: rest => if isIdle part then dropIdle absolute rest else part :: rest

/-- The path of some parts. -/
def ofParts (absolute : Bool) (parts : List (List Char)) : Path :=
  ⟨String.ofList ((if absolute then ['/'] else []) ++ joinWith ['/'] parts)⟩

/-- The path without its last part; the root and the empty path have none. -/
def parent? (p : Path) : Option Path :=
  match dropIdle p.isAbsolute p.parts.reverse with
  | [] => none
  | _ :: rest => some (ofParts p.isAbsolute (dropIdle p.isAbsolute rest).reverse)

/-- The last part, if it is the name of a file or directory. -/
def fileName? (p : Path) : Option (List Char) :=
  match dropIdle p.isAbsolute p.parts.reverse with
  | [] => none
  | name :: _ => if name = ['.'] ∨ name = ['.', '.'] then none else some name

/-- The text behind the last dot of the file name; none if that dot is its first character. -/
def extension? (p : Path) : Option String :=
  match p.fileName? with
  | none => none
  | some name =>
    let tail := (name.reverse.takeWhile (· != '.')).reverse
    if tail.length + 1 < name.length then some (String.ofList tail) else none

/-- The directories of the path from its own text up, each one part shorter than the one before. -/
def ancestors (p : Path) : List Path :=
  let rec go : Nat → Path → List Path
    | 0, p => [p]
    | bound + 1, p =>
      match p.parent? with
      | some parent => p :: go bound parent
      | none => [p]
  go p.text.length p

end Path

/-- The directories of a list that is separated by colons; an empty list is one empty path. -/
def Path.listOf (text : String) : List Path :=
  (splitWhere (· == ':') text.toList).map fun part => ⟨String.ofList part⟩

end JniLink
