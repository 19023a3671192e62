import JniLink.Android.Target
import JniLink.System

/-!
# Packaging

The release builds of a library are copied to where an application bundles them, one for each target.
Nothing is copied unless every build is there; the targets are then copied one by one, so that an
error leaves the copies before it standing, and the directories that were made for the next one.
-/

namespace JniLink.Android

/-- Why packaging fails. -/
inductive PackageError where
  | missingBuild (target : Target) (path : Path)
  | files (path : Path) (fault : FileFault)
  deriving DecidableEq, Repr

/-- The wording of an error. -/
def PackageError.message : PackageError → String
  | .missingBuild target path => s!"no release build for {target.triple}: {path.text} not found"
  | .files path fault => s!"{path.text}: {fault.message}"

/-- Copies the build of one target. -/
def copyBuild (s : System) (source target : Path) : Except PackageError Unit × System :=
  match s.makeAbove target with
  | (.error (dir, fault), s) => (.error (.files dir fault), s)
  | (.ok (), s) =>
    match s.files.copy s.workingPlace source target with
    | .error fault => (.error (.files target fault), s)
    | .ok files => (.ok (), s.withFiles files)

/-- Copies builds until one fails: the paths of the copies or the error, and what is left. -/
def copyBuilds (s : System) : List (Path × Path) → Except PackageError (List Path) × System
  | [] => (.ok [], s)
  | (source, target) :: rest =>
    match copyBuild s source target with
    | (.error e, s) => (.error e, s)
    | (.ok (), s) =>
      match copyBuilds s rest with
      | (.error e, s) => (.error e, s)
      | (.ok paths, s) => (.ok (target :: paths), s)

/-- Copies the release builds of a library for some targets. -/
def package (s : System) (targets : List Target) (targetDir jniLibs : Path) (library : String) :
    Except PackageError (List Path) × System :=
  match targets.find? fun t => !s.isFile (t.buildPath targetDir library) with
  | some t => (.error (.missingBuild t (t.buildPath targetDir library)), s)
  | none =>
    copyBuilds s
      (targets.map fun t => (t.buildPath targetDir library, t.libraryPath jniLibs library))

end JniLink.Android
