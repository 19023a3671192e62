import JniLink.LinkError
import JniLink.System

/-!
# The dynamic linker

What the linker does with the path it is given. What holds a slash is opened as a file, and what does
not is looked for among the names by which the linker finds files: those in its own directories, and
in the directories that its variable gave it when the program began. What they are is no matter of
ours, so the system has them in a table. The empty text asks for the program itself, which exports
nothing here. A file that is opened again is the file that is open already, and keeps the path by
which it was opened first.
-/

namespace JniLink

open JniLink.Text

/-- The text that the linker is given for a path. It ends at a NUL, so the path may end with one; a
NUL before the end cannot be passed on. -/
def Path.linkerText (p : Path) : Except OpenFault String :=
  let t := p.text.toList
  if t.getLast? = some '\x00' then
    if '\x00' ∈ t.dropLast then .error .nulInsideAndAtEnd else .ok (String.ofList t.dropLast)
  else if '\x00' ∈ t then .error .nulInside
  else .ok p.text

/-- Why the linker fails on a file that the system cannot open. -/
def FileFault.openFault : FileFault → OpenFault
  | .notDirectory => .notDirectory
  | .isDirectory => .isDirectory
  | .nameTooLong => .nameTooLong
  | .missing | .exists | .nulInName | .notText => .missing

namespace System

/-- Opens the file at a path. -/
def linkFile (s : System) (path : Path) : Except OpenFault (LinkedFile × Image) := do
  let place ← (s.files.locate s.workingPlace path).mapError FileFault.openFault
  match ← (s.files.read s.workingPlace path).mapError FileFault.openFault with
  | .bytes data => .error (if data.length < 64 then .tooShort else .invalidHeader)
  | .image image => return (s.linkedFile place path, image)

/-- The path that the linker opens for a text: the text itself if there is a slash in it, and else the
path of the file that it finds by this name. -/
def linkTarget? (s : System) (text : String) : Option Path :=
  if '/' ∈ text.toList then some ⟨text⟩ else s.named? text

/-- Opens what a text without a NUL asks for. A fault is told of the path that was opened, or of the
name by which nothing is found. -/
def link (s : System) (text : String) : Except (String × OpenFault) (LinkedFile × Image) :=
  if text = "" then .ok (⟨[], .empty⟩, ⟨[]⟩)
  else
    match s.linkTarget? text with
    | some path => (s.linkFile path).mapError (path.text, ·)
    | none => .error (text, if isTooLong text.toList then .nameTooLong else .missing)

end System

end JniLink
