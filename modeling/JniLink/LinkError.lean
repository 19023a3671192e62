import JniLink.JvmType.Descriptor
import JniLink.Symbol.Basic

/-!
# What can go wrong between a declaration and its library

The causes for which a library is not loaded, a declaration is not bound, or a call gives no text,
and their wording.
-/

namespace JniLink

/-- Why a name is not the bare name of a library. -/
inductive NameFault where
  | empty
  /-- It has a separator or a NUL in it. -/
  | path
  /-- It has the extension of a library file. -/
  | extension
  deriving DecidableEq, Repr

/-- The wording of a fault. -/
def NameFault.message : NameFault → String
  | .empty => "empty name"
  | .path => "expected a bare name, not a path"
  | .extension => "expected a bare name without a file extension"

/-- Why the linker cannot open a file. -/
inductive OpenFault where
  | missing
  | notDirectory
  | isDirectory
  /-- The path, or a name in it, has too many bytes. -/
  | nameTooLong
  /-- The file is shorter than the header of a library. -/
  | tooShort
  /-- The file is long enough and no library. -/
  | invalidHeader
  /-- The linker cannot be given the path, for there is a NUL in it. -/
  | nulInside
  /-- The path ends with a NUL, and there is one before its end too. -/
  | nulInsideAndAtEnd
  deriving DecidableEq, Repr

/-- The wording of a fault of what a path asks for. -/
def OpenFault.message (path : String) : OpenFault → String
  | .missing => s!"{path}: cannot open shared object file: No such file or directory"
  | .notDirectory => s!"{path}: cannot open shared object file: Not a directory"
  | .isDirectory => s!"{path}: cannot read file data: Is a directory"
  | .nameTooLong => s!"{path}: cannot open shared object file: File name too long"
  | .tooShort => s!"{path}: file too short"
  | .invalidHeader => s!"{path}: invalid ELF header"
  | .nulInside => "could not create a C string from bytes"
  | .nulInsideAndAtEnd => "could not create a C string from bytes with trailing null"

/-- Why a manifest cannot be used. -/
inductive ManifestError where
  /-- The text is no JSON document with the fields of a manifest. -/
  | malformed
  /-- The library answers no text at all. -/
  | absent (library : String)
  | notText (library : String) (fault : Text.Utf8.Fault)
  /-- The descriptor of an export cannot be read. -/
  | badExport (symbol : String) (error : DescriptorError)
  /-- The descriptor of an export cannot be read when a declaration is checked against it. -/
  | badExportOf (symbol library : String) (error : DescriptorError)
  deriving DecidableEq, Repr

/-- What a call answered in place of a text. -/
inductive ReturnFault where
  | nothing
  | notText (fault : Text.Utf8.Fault)
  deriving DecidableEq, Repr

/-- The wording of a fault. -/
def ReturnFault.message : ReturnFault → String
  | .nothing => "a null pointer"
  | .notText fault => s!"invalid UTF-8 ({fault.message})"

/-- Why a declaration is not bound to a library. -/
inductive LinkError where
  | invalidName (name : String) (fault : NameFault)
  /-- The linker cannot open a path, or finds none by a name; `sought` is the path that was looked
  for, if a library was asked for by its bare name. -/
  | cannotLink (library path : String) (fault : OpenFault) (sought : Option String)
  | notLoaded (library : String)
  /-- None of the symbols that were tried is exported. -/
  | unsatisfied (function library : String) (tried : List String)
  /-- The manifest gives the function another signature. -/
  | mismatch (function declared exported : String)
  | descriptor (error : DescriptorError)
  | symbol (error : SymbolError)
  | manifest (error : ManifestError)
  | badReturn (function : String) (fault : ReturnFault)
  deriving DecidableEq, Repr

/-- The wording of a descriptor error in a message of its own. -/
def DescriptorError.report (e : DescriptorError) : String :=
  s!"invalid descriptor: {e.message}"

/-- The wording of an error. -/
def ManifestError.message : ManifestError → String
  | .malformed => "not a manifest document"
  | .absent library => s!"'{library}' returned a null manifest"
  | .notText library fault => s!"'{library}' manifest is not UTF-8: {fault.message}"
  | .badExport symbol error => s!"export '{symbol}': {error.report}"
  | .badExportOf symbol library error => s!"export '{symbol}' in '{library}': {error.report}"

/-- The wording of an error. -/
def LinkError.message : LinkError → String
  | .invalidName name fault => s!"invalid library name '{name}': {fault.message}"
  | .cannotLink library path fault sought =>
    let looked := (sought.map fun sought => s!" (looked for {sought})").getD ""
    s!"cannot link library '{library}': {fault.message path}{looked}"
  | .notLoaded library => s!"library '{library}' is not loaded"
  | .unsatisfied function library tried =>
    let tried := ", ".intercalate tried
    s!"unsatisfied link for {function} in '{library}' (tried {tried})"
  | .mismatch function declared exported =>
    s!"signature mismatch for {function}: declared {declared}, library exports {exported}"
  | .descriptor error => error.report
  | .symbol error => s!"invalid symbol: {error.message}"
  | .manifest error => s!"invalid ABI manifest: {error.message}"
  | .badReturn function fault => s!"native call {function} returned {fault.message}"

end JniLink
