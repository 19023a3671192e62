import JniLink.Config.Document

/-!
# Configuration files

A configuration is read from a file, and is valid then; it is looked for in a directory and in those
above it, and the nearest file decides. Without any file a project has the default configuration.
-/

namespace JniLink.Config

/-- The name of a configuration file. -/
def fileName : String := "rustjni.toml"

/-- Reads the configuration in a file. -/
def load (s : System) (path : Path) : Except ConfigError Config :=
  if !s.contains path then .error (.notFound path)
  else
    match s.readText path with
    | .error fault => .error (.files fault)
    | .ok text =>
      match ofDocument text with
      | .error fault => .error (.document fault)
      | .ok c =>
        match c.validate with
        | .error e => .error e
        | .ok () => .ok c

/-- The nearest configuration file in some directories. -/
def nearest? (s : System) (dirs : List Path) : Option Path :=
  (dirs.map (· / fileName)).find? s.contains

/-- Reads the configuration that is in force in a directory. -/
def find (s : System) (dir : Path) : Except ConfigError Config :=
  match nearest? s dir.ancestors with
  | some path => load s path
  | none => .ok {}

/-- Writes a configuration to a file. -/
def save (s : System) (path : Path) (c : Config) : Except ConfigError System :=
  match s.files.writeText s.workingPlace path c.document with
  | .error fault => .error (.files fault)
  | .ok files => .ok (s.withFiles files)

end JniLink.Config
