import JniLink.File.Path
import JniLink.LinkError

/-!
# Library names

A library is known by its bare name, to which the file name is made. A name that could be taken for a
path or a file name is refused before anything is looked for.
-/

namespace JniLink.Library

open JniLink.Text

/-- The file name of a library. -/
def fileName (name : String) : String :=
  "lib" ++ name ++ ".so"

/-- The extensions of library files on the platforms. -/
def extensions : List String := ["so", "dylib", "dll"]

/-- What is wrong with a bare name; the first fault that applies. -/
def nameFault? (name : String) : Option NameFault :=
  let t := name.toList
  if trim t = [] then some .empty
  else if '/' ∈ t ∨ '\\' ∈ t ∨ '\x00' ∈ t then some .path
  else if (Path.extension? ⟨name⟩).any (extensions.contains ·) then some .extension
  else none

/-- Refuses a name that is not bare. -/
def validateName (name : String) : Except LinkError Unit :=
  match nameFault? name with
  | some fault => .error (.invalidName name fault)
  | none => .ok ()

end JniLink.Library
