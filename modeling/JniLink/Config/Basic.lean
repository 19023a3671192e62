import JniLink.Android.Toolchain
import JniLink.Declaration
import JniLink.Library.Name
import JniLink.LinkError
import JniLink.System

/-!
# Project configuration

What a project says about its native side: the library, the host class with its native methods, the
Android targets, and the level of the log. Every part has a value of its own when nothing is said.
A configuration may be contradictory; `validate` finds out before anything is loaded.
-/

namespace JniLink

open JniLink.Text JniLink.Android

/-- A native method of the host class. -/
structure Config.Method where
  name : String
  descriptor : String
  deriving DecidableEq, Repr

/-- The library of a project. -/
structure Config.LibrarySection where
  /-- Its bare name. -/
  name : String := "rustjni_hello"
  /-- Directories in which it is looked for before all others, the last one first. -/
  searchPaths : List Path := []
  /-- A function that answers a text and is called when the library is loaded. -/
  startupSymbol : Option String := none
  deriving DecidableEq, Repr

/-- The host class of a project. -/
structure Config.HostSection where
  host : String := "com.devfigas.rustjni.sample.MainActivity"
  methods : List Config.Method := [⟨"sayHello", "()Ljava/lang/String;"⟩]
  deriving DecidableEq, Repr

/-- How a project is built for Android. -/
structure Config.AndroidSection where
  targets : List Target := Target.all
  /-- Where an application bundles its libraries. -/
  jniLibs : Path := ⟨"app/src/main/jniLibs"⟩
  /-- The root of the development kit. -/
  ndk : Option Path := none
  /-- The name of the development kit's tools. -/
  prebuilt : Option String := none
  apiLevel : UInt32 := defaultApiLevel
  ar : String := defaultAr
  /-- Linkers in place of the default ones, by either name of a target. -/
  linkers : NameMap String := .empty
  deriving DecidableEq, Repr

/-- The log of a project. -/
structure Config.LogSection where
  level : String := "info"
  deriving DecidableEq, Repr

/-- The configuration of a project. -/
structure Config where
  library : Config.LibrarySection := {}
  jni : Config.HostSection := {}
  android : Config.AndroidSection := {}
  log : Config.LogSection := {}
  deriving DecidableEq, Repr

/-- Why a document is no configuration. -/
inductive Config.ReadFault where
  /-- It is no TOML document. -/
  | syntaxError
  /-- A value is of the wrong kind. -/
  | wrongKind
  | missingField (name : String)
  | unknownTarget (name : String)
  deriving DecidableEq, Repr

/-- What a configuration contradicts. -/
inductive Config.Conflict where
  | libraryName (error : LinkError)
  /-- There are methods and no class that declares them. -/
  | noHost
  /-- A linker is given for something that is no target. -/
  | linkerTarget (name : String)
  deriving DecidableEq, Repr

/-- Why a configuration cannot be used. -/
inductive ConfigError where
  | files (fault : FileFault)
  | notFound (path : Path)
  | document (fault : Config.ReadFault)
  | method (name : String) (error : DescriptorError)
  | conflict (conflict : Config.Conflict)
  deriving DecidableEq, Repr

namespace Config

/-- The wording of a fault. -/
def ReadFault.message : ReadFault → String
  | .syntaxError => "not a TOML document"
  | .wrongKind => "a value of the wrong kind"
  | .missingField name => "missing field `" ++ name ++ "`"
  | .unknownTarget name => Target.unknownMessage name

/-- The wording of a conflict. -/
def Conflict.message : Conflict → String
  | .libraryName error => error.message
  | .noHost => "[jni] methods need a host class"
  | .linkerTarget name => s!"[android.linkers] {Target.unknownMessage name}"

/-- The method's declaration in a host class. -/
def Method.declaration (m : Method) (host : String) : Except ConfigError Declaration :=
  match Signature.ofDescriptor m.descriptor with
  | .error e => .error (.method m.name e)
  | .ok signature => .ok (.ofMethod host m.name signature)

/-- The declarations of the host class, in order. -/
def declarations (c : Config) : Except ConfigError (List Declaration) :=
  c.jni.methods.mapM (·.declaration c.jni.host)

/-- A configuration without contradictions: a bare library name, a host class if there are methods,
linkers for targets only, and descriptors that can be read. -/
def validate (c : Config) : Except ConfigError Unit := do
  (Library.validateName c.library.name).mapError fun e => .conflict (.libraryName e)
  if trim c.jni.host.toList = [] ∧ c.jni.methods ≠ [] then throw (.conflict .noHost)
  match c.android.linkers.entries.find? fun entry => (Target.ofName? entry.1).isNone with
  | some (name, _) => throw (.conflict (.linkerTarget name))
  | none => pure ()
  let _ ← c.declarations
  return ()

/-- The root of the development kit: what is configured, or what the environment says. -/
def AndroidSection.kit? (a : AndroidSection) (s : System) : Option Path :=
  a.ndk.or ((s.environmentValue? "ANDROID_NDK_HOME").map Path.mk) |>.or
    ((s.environmentValue? "ANDROID_NDK_ROOT").map Path.mk)

/-- The linker of a target: the first one that is configured under either of its names. -/
def AndroidSection.linker (a : AndroidSection) (target : Target) : String :=
  match a.linkers.entries.find? fun entry => Target.ofName? entry.1 = some target with
  | some (_, linker) => linker
  | none => defaultLinker target a.apiLevel

/-- The tools of every configured target. -/
def AndroidSection.toolchains (a : AndroidSection) : List Toolchain :=
  a.targets.map fun target => ⟨target, a.ar, a.linker target⟩

end Config

/-- The wording of an error. -/
def ConfigError.message : ConfigError → String
  | .files fault => s!"Failed to read config file: {fault.message}"
  | .notFound path => s!"Config file not found: {path.text}"
  | .document fault => s!"Failed to parse config: {fault.message}"
  | .method name error => s!"Invalid method '{name}': {error.report}"
  | .conflict c => s!"Invalid config: {c.message}"

end JniLink
