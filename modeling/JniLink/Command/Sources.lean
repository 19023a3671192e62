import JniLink.Command.Project
import JniLink.Host.Splice
import JniLink.Stub

/-!
# Commands on sources

`declare` prints the configured methods for the host class or writes them into its file, `stub`
generates stubs for the methods of a host source that no library exports yet, and `symbol` and
`demangle` go from a method to its symbols and back.
-/

namespace JniLink.Project

open JniLink.Text

/-- Writes a text file. -/
def writeText (p : Project) (path : Path) (text : String) : Except FileFault System :=
  (p.system.files.writeText p.system.workingPlace path text).map p.system.withFiles

/-- The simple name of the host class: what follows the last `.` or `$` of its name. -/
def hostName (p : Project) : String :=
  String.ofList ((splitWhere (fun c => c == '.' || c == '$') p.config.jni.host.toList).getLast?.getD [])

/-- Writes declarations into the file of the host class. -/
def declareIn (p : Project) (decls : List Declaration) (path : Path) : Finish :=
  match Language.ofPath? path with
  | none => .failed p.system (.notHostFile path)
  | some language =>
    match p.system.readText path with
    | .error fault => .failedIn p.system (.read path) (.files fault)
    | .ok content =>
      match Host.splice content p.hostName p.config.library.name decls language with
      | .error e => .failedIn p.system (.findClass p.hostName path) (.host e)
      | .ok updated =>
        match p.writeText path updated with
        | .error fault => .failedIn p.system (.write path) (.files fault)
        | .ok s => .done s s!"Declared {decls.length} natives in {path.text}\n"

/-- Prints the declarations of the configured methods, or writes them into a file. -/
def declare (p : Project) (java : Bool) (file : Option Path) : Finish :=
  match p.config.declarations with
  | .error e => .failed p.system (.config e)
  | .ok decls =>
    match file with
    | some path => p.declareIn decls path
    | none =>
      .done p.system
        (Host.declarations p.config.library.name decls (if java then .java else .kotlin))

/-- The declarations that a library leaves open; one that it exports with another signature is an
error. -/
def openIn (library : Library) : List Declaration → Except (Declaration × LinkError) (List Declaration)
  | [] => .ok []
  | d :: decls =>
    match library.resolve d with
    | .ok _ => openIn library decls
    | .error (.unsatisfied ..) => (openIn library decls).map (d :: ·)
    | .error e => .error (d, e)

/-- Prints stubs, or writes them into a file. -/
def writeStubs (p : Project) (owner : String) (decls : List Declaration) (output : Option Path) :
    Finish :=
  if decls = [] then { notice := s!"Nothing to generate for {owner}\n", system := p.system }
  else
    match output with
    | none => .done p.system (Stub.file decls)
    | some path =>
      match p.writeText path (Stub.file decls) with
      | .error fault => .failedIn p.system .writeOutput (.files fault)
      | .ok s => .done s s!"Wrote {decls.length} stubs to {path.text}\n"

/-- Generates stubs for the native methods of a host source, without those that a library exports. -/
def stub (p : Project) (source : Path) (library : Option String) (output : Option Path) : Finish :=
  match Language.ofPath? source with
  | none => .failed p.system (.notHostFile source)
  | some language =>
    match p.system.readText source with
    | .error fault => .failedIn p.system .readSource (.files fault)
    | .ok content =>
      match HostSource.ofText language content with
      | .error e => .failedIn p.system (.parse source) (.host e)
      | .ok host =>
        match library with
        | none => p.writeStubs host.owner host.methods output
        | some name =>
          match p.openLibrary name with
          | .error e => .failed p.system (.link e)
          | .ok (library, p) =>
            match openIn library host.methods with
            | .error (d, e) => .failedIn p.system (.compare d) (.link e)
            | .ok decls => p.writeStubs host.owner decls output

/-- Prints the symbols of a method; the long one needs its descriptor. -/
def symbol (p : Project) (owner method : String) (descriptor : Option String) : Finish :=
  let short := Symbol.short owner method ++ "\n"
  match descriptor with
  | none => .done p.system short
  | some text =>
    match Signature.ofDescriptor text with
    | .error e => .after short (.failed p.system (.link (.descriptor e)))
    | .ok signature => .done p.system (short ++ Symbol.long owner method signature ++ "\n")

/-- Prints what a symbol stands for. -/
def demangle (p : Project) (symbol : String) : Finish :=
  match Symbol.ofText symbol with
  | .error e => .failed p.system (.link (.symbol e))
  | .ok d =>
    let args := (d.args.map fun args => s!"args:   ({args})\n").getD ""
    .done p.system (s!"class:  {d.owner}\nmethod: {d.method}\n" ++ args)

end JniLink.Project
