import JniLink.File.Path

/-!
# Android targets

The processor families of Android, with the two names each of them goes by: the triple of the
compiler and the name of the binary interface, under which an application bundles its libraries.
-/

namespace JniLink.Android

/-- A processor family. -/
inductive Target where
  | armv7 | aarch64 | i686 | x8664
  deriving DecidableEq, Repr, Inhabited

namespace Target

/-- All targets, in the order in which they are listed. -/
def all : List Target := [armv7, aarch64, i686, x8664]

/-- The compiler's name of a target. -/
def triple : Target → String
  | armv7 => "armv7-linux-androideabi"
  | aarch64 => "aarch64-linux-android"
  | i686 => "i686-linux-android"
  | x8664 => "x86_64-linux-android"

/-- The name of a target's binary interface, which is also the directory of its libraries. -/
def abi : Target → String
  | armv7 => "armeabi-v7a"
  | aarch64 => "arm64-v8a"
  | i686 => "x86"
  | x8664 => "x86_64"

/-- The target with a triple. -/
def ofTriple? (triple : String) : Option Target :=
  all.find? (·.triple = triple)

/-- The target with a binary interface. -/
def ofAbi? (abi : String) : Option Target :=
  all.find? (·.abi = abi)

/-- The target with either name. -/
def ofName? (name : String) : Option Target :=
  (ofTriple? name).or (ofAbi? name)

/-- The message about a name that is no target's. -/
def unknownMessage (name : String) : String :=
  s!"unknown Android target '{name}'"

/-- The file that holds a library for a target. -/
def fileName (library : String) : String :=
  "lib" ++ library ++ ".so"

/-- Where an application bundles a library for a target. -/
def libraryPath (t : Target) (jniLibs : Path) (library : String) : Path :=
  jniLibs / t.abi / fileName library

/-- Where the compiler leaves a release build of a library for a target. -/
def buildPath (t : Target) (targetDir : Path) (library : String) : Path :=
  targetDir / t.triple / "release" / fileName library

end Target

end JniLink.Android
