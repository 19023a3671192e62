import JniLink.Command.Failure
import JniLink.Config.File
import JniLink.Registry.Basic

/-!
# What commands start from and leave behind

A command starts from a project: its configuration, the registry that loads libraries for it, and
the system. It leaves what it has printed, which stays printed if it fails later, and the system with
the files it has written.
-/

namespace JniLink

/-- What a command starts from. -/
structure Project where
  config : Config
  registry : Registry
  system : System

/-- What a command leaves behind. -/
structure Finish where
  /-- What was printed. -/
  output : String := ""
  /-- What was printed beside the output. -/
  notice : String := ""
  failure : Option Failure := none
  system : System

namespace Finish

/-- A command that has printed its answer and is done. -/
def done (s : System) (output : String) : Finish :=
  { output, system := s }

/-- A command that fails before it prints anything. -/
def failed (s : System) (problem : Problem) : Finish :=
  { failure := some { problem }, system := s }

/-- A command that fails in an activity. -/
def failedIn (s : System) (activity : Activity) (problem : Problem) : Finish :=
  { failure := some ⟨some activity, problem⟩, system := s }

/-- A command that has printed something before. -/
def after (output : String) (f : Finish) : Finish :=
  { f with output := output ++ f.output }

/-- What is printed beside the output, at the end the report of a failure. -/
def errors (f : Finish) : String :=
  f.notice ++ (f.failure.map Failure.report).getD ""

/-- The exit code of the program. -/
def code (f : Finish) : Nat :=
  if f.failure.isSome then 1 else 0

end Finish

namespace Project

/-- The project of a configuration: its directories are searched before all others. -/
def ofConfig (s : System) (c : Config) : Project :=
  ⟨c, c.library.searchPaths.foldl Registry.addSearchPath (.ofLoader (.default s)), s⟩

/-- The project that a file configures, or the one around the working directory. -/
def load (s : System) : Option Path → Except Failure Project
  | some path =>
    match Config.load s path with
    | .error e => .error ⟨some (.loadConfig path), .config e⟩
    | .ok c => .ok (ofConfig s c)
  | none =>
    match Config.find s s.workingDirectory with
    | .error e => .error ⟨some .findConfig, .config e⟩
    | .ok c => .ok (ofConfig s c)

/-- How a library is asked for: by the path of a file, or by its bare name. -/
def request (p : Project) (library : String) : Request :=
  if library.toList.contains '/' || library.toList.contains '\\' || p.system.isFile ⟨library⟩ then
    .file ⟨library⟩
  else .bare library

/-- Loads what is asked for. -/
def loadLibrary (p : Project) (q : Request) : Except LinkError (Library × Project) :=
  match p.registry.load p.system q with
  | (.error e, _, _) => .error e
  | (.ok library, registry, system) => .ok (library, { p with registry, system })

/-- Loads a library by its path or its name. -/
def openLibrary (p : Project) (library : String) : Except LinkError (Library × Project) :=
  p.loadLibrary (p.request library)

end Project

end JniLink
