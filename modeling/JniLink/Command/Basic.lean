import JniLink.Command.Help
import JniLink.File.Path

/-!
# Commands

What the program can be told to do, and how a command line says it: the name of the command, its
arguments, and in front of or behind the name the file of the configuration. If both places name a
file, the one behind the name counts. A word that asks for the version or for help is answered as
soon as it is reached, whatever stands behind it.
-/

namespace JniLink

open JniLink.Text

/-- A command. -/
inductive Command where
  /-- Bind every configured method in a library without calling it. -/
  | check (library : Option String)
  /-- Call a function that answers a text. -/
  | call (library symbol : String)
  /-- Write the tools of every target into the build's configuration. -/
  | cargoConfig (output : Path)
  /-- Print the configured methods for the host class, or write them into its file. -/
  | declare (java : Bool) (file : Option Path)
  /-- Show what a symbol stands for. -/
  | demangle (symbol : String)
  /-- Copy the release builds to where an application bundles them. -/
  | package (targetDir : Path)
  /-- Load the library and bind its methods, as the host does when it starts. -/
  | run
  /-- Generate stubs for the native methods of a host source. -/
  | stub (source : Path) (library : Option String) (output : Option Path)
  /-- Print the symbols of a method. -/
  | symbol (owner method : String) (descriptor : Option String)
  /-- List the targets and where the library goes for each. -/
  | targets
  deriving DecidableEq, Repr

namespace Command

/-- The option that names the configuration file; every command takes it. -/
def configOption : CommandOption :=
  { long := "config", value := some (.path, "CONFIG")
    about := "Config file (default: rustjni.toml in this or a parent directory)" }

/-- The option that names a library. -/
def libraryOption (about : String) : CommandOption :=
  { long := "lib", value := some (.text, "LIB"), about }

/-- The option that names the file to be written. -/
def outputOption (about : String) (fallback : Option String) : CommandOption :=
  { long := "output", short := some 'o', value := some (.path, "OUTPUT"), about, fallback }

/-- The file that the tools are written to unless another one is named. -/
def toolsFile : String := ".cargo/config.toml"

/-- The directory that the builds are taken from unless another one is named. -/
def buildDirectory : String := "target"

/-- The names of the commands, and what each of them takes. -/
def usages : List (String × Usage) :=
  let usage (name about : String) (options : List CommandOption) (operands : List Operand) :=
    (name, Usage.mk about (configOption :: options) operands)
  [usage "check"
      "Resolve the configured library and every declared method without calling them"
      [libraryOption "Library name or path (default: [library] name)"] [],
    usage "call" "Call a zero-argument C export returning a string" []
      [⟨"LIB", .text, "Library name or path"⟩, ⟨"SYMBOL", .text, "Exported symbol"⟩],
    usage "cargo-config"
      "Write the NDK linker and archiver of each target into .cargo/config.toml"
      [outputOption "Config file to create or update" (some toolsFile)] [],
    usage "declare" "Print host-side declarations for the configured methods"
      [{ long := "java", about := "Emit Java instead of Kotlin" },
        { long := "write", value := some (.path, "FILE")
          about := "Splice them into this .kt or .java file instead of printing" }] [],
    usage "demangle" "Decode a Java_ symbol" [] [⟨"SYMBOL", .text, ""⟩],
    usage "package" "Copy release builds of every target into the jniLibs tree"
      [{ long := "target-dir", value := some (.path, "TARGET_DIR")
         about := "Cargo target directory", fallback := some buildDirectory }] [],
    usage "run" "Load the library and bind its natives, as the host does at startup" [] [],
    usage "stub" "Generate Rust JNI stubs for the natives declared in a Kotlin or Java file"
      [libraryOption "Only emit stubs for methods this library does not export",
        outputOption "Output file (default: stdout)" none]
      [⟨"SOURCE", .path, "Host class source (.kt or .java)"⟩],
    usage "symbol" "Print the exported symbol names for a method"
      [{ long := "descriptor", value := some (.text, "DESCRIPTOR")
         about := "Method descriptor, enables the long (overloaded) form" }]
      [⟨"CLASS", .text, "Dotted class name, e.g. com.example.MainActivity"⟩,
        ⟨"METHOD", .text, "Method name"⟩],
    usage "targets" "List Android targets and where the library goes for each" [] []]

/-- What the command with a name takes. -/
def usage? (name : String) : Option Usage :=
  (usages.find? (·.1 = name)).map (·.2)

/-- The command with a name and some arguments. -/
def ofArguments? (name : String) (a : Arguments) : Option Command :=
  let path? (long : String) : Option Path := (a.option? long).map Path.mk
  match name, a.operands with
  | "check", [] => some (.check (a.option? "lib"))
  | "call", [library, function] => some (.call library function)
  | "cargo-config", [] => some (.cargoConfig ((path? "output").getD ⟨toolsFile⟩))
  | "declare", [] => some (.declare (a.hasFlag "java") (path? "write"))
  | "demangle", [text] => some (.demangle text)
  | "package", [] => some (.package ((path? "target-dir").getD ⟨buildDirectory⟩))
  | "run", [] => some .run
  | "stub", [source] => some (.stub ⟨source⟩ (a.option? "lib") (path? "output"))
  | "symbol", [owner, method] => some (.symbol owner method (a.option? "descriptor"))
  | "targets", [] => some .targets
  | _, _ => none

end Command

/-- What help is asked for. -/
inductive HelpTopic where
  | program
  | command (name : String) (usage : Usage)
  /-- The command that prints help. -/
  | help
  deriving DecidableEq, Repr

namespace HelpTopic

/-- What the command that prints help does. -/
def helpAbout : String := "Print this message or the help of the given subcommand(s)"

/-- The text of a topic. -/
def text : HelpTopic → String
  | .program =>
    helpText "Native binding loader and JNI symbol tooling" "rustjni [OPTIONS] <COMMAND>"
      [("Commands", Command.usages.map (fun (name, usage) => (name, usage.about)) ++
          [("help", helpAbout)]),
        ("Options", optionRows [Command.configOption, helpOption,
          { long := "version", short := some 'V', about := "Print version" }])]
  | .command name usage => usage.help s!"rustjni {name}"
  | .help =>
    helpText helpAbout "rustjni help [COMMAND]..."
      [("Arguments", [("[COMMAND]...", "Print help for the subcommand(s)")])]

/-- The topic that the words behind the command for help name. -/
def ofWords? : List String → Option HelpTopic
  | [] => some .program
  | [name] => if name = "help" then some .help else (Command.usage? name).map (.command name)
  | _ => none

end HelpTopic

/-- What a command line asks for. -/
inductive Invocation where
  /-- The version of the program. -/
  | version
  | help (topic : HelpTopic)
  | command (config : Option Path) (command : Command)
  deriving DecidableEq, Repr

namespace Invocation

/-- What is taken in front of a command's name. -/
def leadingUsage : Usage := { about := "", options := [Command.configOption] }

/-- Whether a word asks for the version; letters behind the short name are not looked at. -/
def asksVersion : Word → Bool
  | .long "version" none => true
  | .short ('V' :: _) => true
  | _ => false

/-- Whether a word asks for help; letters behind the short name are not looked at. -/
def asksHelp : Word → Bool
  | .long "help" none => true
  | .short ('h' :: _) => true
  | _ => false

/-- Whether the words behind a command's name ask for help before one of them is refused. -/
def reachesHelp (usage : Usage) (r : Reader) : List String → Bool
  | [] => false
  | word :: words =>
    if r.pending.isNone && !r.escaped && asksHelp (Word.ofText word) then true
    else
      match r.step usage word with
      | some r => reachesHelp usage r words
      | none => false

/-- Reads a command's name and the words behind it; `leading` is what stood in front. -/
def ofCommand? (leading : Arguments) (name : String) (words : List String) : Option Invocation := do
  let usage ← Command.usage? name
  if reachesHelp usage {} words then return .help (.command name usage)
  let a ← Arguments.ofWords? usage words
  let config := (a.option? "config").or (leading.option? "config")
  return .command (config.map Path.mk) (← Command.ofArguments? name a)

/-- Reads the words from one in front of the command's name on. -/
def ofWordsFrom? (r : Reader) : List String → Option Invocation
  | [] => none
  | word :: words =>
    let next := (r.step leadingUsage word).bind fun r => ofWordsFrom? r words
    if r.pending.isSome || r.escaped then next
    else
      match Word.ofText word with
      | .plain "help" => (HelpTopic.ofWords? words).map .help
      | .plain name => ofCommand? r.got name words
      | w =>
        if asksVersion w then some .version
        else if asksHelp w then some (.help .program)
        else next

/-- Reads a command line; one that cannot be read is a usage error. -/
def ofWords? (words : List String) : Option Invocation :=
  ofWordsFrom? {} words

end Invocation

end JniLink
