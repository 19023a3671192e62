import JniLink.Android.Package
import JniLink.Config.Basic
import JniLink.Host.Source

/-!
# Failures of commands

Why a command fails, what it was doing, and how that is reported: the activity or the problem itself
comes first, and the problem and its own causes follow, numbered if there are several.
-/

namespace JniLink

open JniLink.Text

/-- Why a command fails. -/
inductive Problem where
  | link (error : LinkError)
  | config (error : ConfigError)
  | host (error : HostError)
  | packaging (error : Android.PackageError)
  | files (fault : FileFault)
  /-- No development kit is configured. -/
  | noKit
  /-- The development kit has no tools for the machine that builds. -/
  | noTools (dir : Path)
  /-- The name of a file is not that of a host source. -/
  | notHostFile (path : Path)
  /-- Declarations that could not be bound. -/
  | unbound (failures declarations : Nat)
  deriving DecidableEq, Repr

/-- What a command was doing when it failed. -/
inductive Activity where
  | findConfig
  | loadConfig (path : Path)
  | loadLibrary
  | bind (declaration : Declaration)
  | compare (declaration : Declaration)
  | startup
  | readSource
  | parse (path : Path)
  | writeOutput
  | read (path : Path)
  | write (path : Path)
  | create (path : Path)
  | findClass (owner : String) (path : Path)
  deriving DecidableEq, Repr

/-- The failure of a command. -/
structure Failure where
  activity : Option Activity := none
  problem : Problem
  deriving DecidableEq, Repr

/-- The wording of a problem. -/
def Problem.message : Problem → String
  | .link error => error.message
  | .config error => error.message
  | .host error => error.message
  | .packaging error => error.message
  | .files fault => fault.message
  | .noKit => "Android NDK not found; set [android] ndk or ANDROID_NDK_HOME"
  | .noTools dir => s!"NDK toolchain directory {dir.text} does not exist"
  | .notHostFile path => s!"{path.text} is not a .kt or .java file"
  | .unbound failures declarations => s!"{failures} of {declarations} declarations failed to bind"

/-- The wording of what lies behind a problem. -/
def Problem.cause? : Problem → Option String
  | .config (.files fault) => some fault.message
  | .config (.document fault) => some fault.message
  | .config (.method _ error) => some error.report
  | .packaging (.files _ fault) => some fault.message
  | _ => none

/-- The wording of an activity that failed. -/
def Activity.message : Activity → String
  | .findConfig => "Failed to load rustjni.toml"
  | .loadConfig path => s!"Failed to load {path.text}"
  | .loadLibrary => "Native library failed to load"
  | .bind d => s!"Cannot bind {d.text}"
  | .compare d => s!"Cannot check {d.text}"
  | .startup => "Startup call failed"
  | .readSource => "Failed to read source file"
  | .parse path => s!"Failed to parse {path.text}"
  | .writeOutput => "Failed to write output"
  | .read path => s!"Failed to read {path.text}"
  | .write path => s!"Failed to write {path.text}"
  | .create path => s!"Failed to create {path.text}"
  | .findClass owner path => s!"No class {owner} in {path.text}"

namespace Failure

/-- The messages of a failure, from what was done down to the last cause. -/
def messages (f : Failure) : List String :=
  (f.activity.map Activity.message).toList ++ f.problem.message :: f.problem.cause?.toList

/-- Writes a message behind a mark and keeps its further lines below its first. -/
def hang (mark margin message : String) : String :=
  mark ++ String.ofList
    (joinWith ('\n' :: margin.toList) (splitWhere (· == '\n') message.toList)) ++ "\n"

/-- The report of some causes. -/
def reportCauses : List String → String
  | [] => ""
  | [cause] => "\nCaused by:\n" ++ hang "    " "    " cause
  | causes =>
    let numbered := causes.zipIdx.map fun (cause, i) => hang s!"    {i}: " "       " cause
    "\nCaused by:\n" ++ String.join numbered

/-- The report of a failure. -/
def report (f : Failure) : String :=
  match f.messages with
  | [] => ""
  | message :: causes => "Error: " ++ message ++ "\n" ++ reportCauses causes

end Failure

end JniLink
