import JniLink.Library.Linker
import JniLink.Library.Name
import JniLink.Manifest.Document

/-!
# Libraries

An opened library: its image, the manifest it answers, and the name it is known by. A declaration is
bound to the first of its symbols that the image exports, and checked against the manifest.
-/

namespace JniLink

open JniLink.Text

/-- The exported function with a name, if there is one. -/
def Image.export? (i : Image) (symbol : String) : Option Answer :=
  (i.exports.find? (·.1 = symbol)).map (·.2)

/-- The text that a function answers, up to the first NUL. -/
def readAnswer (answer : Answer) : Except ReturnFault String :=
  match answer with
  | none => .error .nothing
  | some bytes => (Utf8.decode (bytes.takeWhile (· ≠ 0))).mapError .notText

/-- An opened library. -/
structure Library where
  /-- What tells this library from every other one that was opened. -/
  id : Nat
  /-- The name it is known by. -/
  name : String
  /-- What the linker was asked for. -/
  path : Path
  /-- The file that the linker opened. -/
  file : LinkedFile
  image : Image
  manifest : Option Manifest
  deriving DecidableEq, Repr

/-- A function of an opened library. -/
structure Pointer where
  library : Nat
  symbol : String
  answer : Answer
  deriving DecidableEq, Repr

namespace Library

/-- The manifest that an image answers under a library's name. -/
def readManifest (name : String) (image : Image) : Except ManifestError (Option Manifest) :=
  match image.export? Manifest.symbol with
  | none => .ok none
  | some answer =>
    match readAnswer answer with
    | .error .nothing => .error (.absent name)
    | .error (.notText fault) => .error (.notText name fault)
    | .ok text => do
      let manifest ← Manifest.ofText text
      manifest.validate
      return some manifest

/-- The path that an error tells as the one that was looked for. -/
def soughtText (path : Path) (searched : Bool) : Option String :=
  if searched then some path.text else none

/-- Opens a library; its identity is the count of those opened before. `searched` says that the
path was looked for by name. -/
def openAt (s : System) (name : String) (path : Path) (searched : Bool) :
    Except LinkError Library :=
  match path.linkerText with
  | .error fault => .error (.cannotLink name path.text fault (soughtText path searched))
  | .ok text =>
    match s.link text with
    | .error (tried, fault) =>
      .error (.cannotLink name tried fault (soughtText path searched))
    | .ok (file, image) =>
      match readManifest name image with
      | .error e => .error (.manifest e)
      | .ok manifest => .ok ⟨s.opened, name, path, file, image, manifest⟩

/-- Whether the library exports a symbol. -/
def has (l : Library) (symbol : String) : Bool :=
  Symbol.isUsable symbol && (l.image.export? symbol).isSome

/-- The symbol that a declaration is bound to: the first one that the library exports, unless the
manifest gives it another signature. -/
def resolve (l : Library) (d : Declaration) : Except LinkError String :=
  match d.symbols.find? l.has with
  | none => .error (.unsatisfied d.text l.name d.symbols)
  | some symbol =>
    match l.manifest with
    | none => .ok symbol
    | some manifest =>
      match manifest.check d symbol with
      | .error e => .error e
      | .ok () => .ok symbol

/-- The function behind a symbol. -/
def pointer (l : Library) (symbol : String) : Except LinkError Pointer :=
  if !Symbol.isUsable symbol then .error (.symbol (.unusable symbol))
  else
    match l.image.export? symbol with
    | some answer => .ok ⟨l.id, symbol, answer⟩
    | none =>
      .error (.unsatisfied symbol l.name
        [s!"{symbol} ({l.file.path.text}: undefined symbol: {symbol})"])

/-- The function that a declaration is bound to. -/
def bind (l : Library) (d : Declaration) : Except LinkError Pointer :=
  match l.resolve d with
  | .error e => .error e
  | .ok symbol => l.pointer symbol

/-- Each declaration with the symbol it is bound to, or why it is not. -/
def checkAll (l : Library) (decls : List Declaration) :
    List (Declaration × Except LinkError String) :=
  decls.map fun d => (d, l.resolve d)

/-- A library as reports show it. -/
def report (l : Library) : String :=
  let manifest := if l.manifest.isSome then "true" else "false"
  "NativeLibrary \x7b name: " ++ quote l.name ++ ", path: " ++ quote l.path.text ++
    ", manifest: " ++ manifest ++ " \x7d"

end Library

/-- The system after a load: a library that was opened keeps its file open. -/
def System.settle (s : System) : Except LinkError Library → System
  | .ok l => s.countOpened.keepOpen l.file
  | .error _ => s.countOpened

end JniLink
