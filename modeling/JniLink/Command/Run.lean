import JniLink.Command.Basic
import JniLink.Command.Building
import JniLink.Command.Linking

/-!
# Running a command line

The configuration is loaded before any command runs, and a command line that cannot be read runs
nothing.
-/

namespace JniLink

/-- The version of the program. -/
def version : String := "0.1.0"

/-- Performs a command in a project. -/
def Project.perform (p : Project) : Command → Finish
  | .check library => p.check library
  | .call library function => p.call library function
  | .cargoConfig output => p.cargoConfig output
  | .declare java file => p.declare java file
  | .demangle text => p.demangle text
  | .package targetDir => p.package targetDir
  | .run => p.run
  | .stub source library output => p.stub source library output
  | .symbol owner method descriptor => p.symbol owner method descriptor
  | .targets => p.targets

/-- Performs a command with the configuration in a file, or with the one in force. -/
def System.perform (s : System) (config : Option Path) (c : Command) : Finish :=
  match Project.load s config with
  | .error failure => { failure := some failure, system := s }
  | .ok p => p.perform c

/-- Runs a command line; none if it cannot be read. -/
def System.execute (s : System) (words : List String) : Option Finish :=
  match Invocation.ofWords? words with
  | none => none
  | some .version => some (.done s s!"rustjni {version}\n")
  | some (.help topic) => some (.done s topic.text)
  | some (.command config c) => some (s.perform config c)

end JniLink
