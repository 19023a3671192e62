import JniLink.Library.Loader
import JniLink.Text.Ascending

/-!
# Registries

A registry loads every library at most once. What a load answered, be it a library or an error, is
kept under the key it was asked for by, and is the answer to every later load and look-up of that
key. The key of a bare name is the name and the key of a path is its text, so the two share their
keys.
-/

namespace JniLink

open JniLink.Text

/-- What a load answers. -/
abbrev Outcome := Except LinkError Library

/-- What a registry is asked to load. -/
inductive Request where
  /-- A library by its bare name. -/
  | bare (name : String)
  /-- The library at a path. -/
  | file (path : Path)
  deriving DecidableEq, Repr

namespace Request

/-- The key under which the outcome is kept. -/
def key : Request → String
  | .bare name => name
  | .file path => path.text

/-- Loads what is asked for. -/
def run (loader : Loader) (s : System) : Request → Outcome
  | .bare name => loader.load s name
  | .file path => Loader.loadPath s path

end Request

/-- The libraries that were loaded. -/
structure Registry where
  loader : Loader
  /-- What the loads answered, by key; every key stands here once. -/
  outcomes : List (String × Outcome)
  deriving Inhabited

namespace Registry

/-- A registry that has loaded nothing. -/
def ofLoader (loader : Loader) : Registry := ⟨loader, []⟩

/-- Looks for libraries that are not loaded yet in one more directory. -/
def addSearchPath (r : Registry) (dir : Path) : Registry :=
  { r with loader := r.loader.add dir }

/-- What the load of a key answered. -/
def find? (r : Registry) (key : String) : Option Outcome :=
  (r.outcomes.find? (·.1 = key)).map (·.2)

/-- Keeps the outcome of a key. -/
def publish (r : Registry) (key : String) (outcome : Outcome) : Registry :=
  { r with outcomes := r.outcomes ++ [(key, outcome)] }

/-- Loads a library, unless its key was loaded before. -/
def load (r : Registry) (s : System) (q : Request) : Outcome × Registry × System :=
  match r.find? q.key with
  | some outcome => (outcome, r, s)
  | none =>
    let outcome := q.run r.loader s
    (outcome, r.publish q.key outcome, s.settle outcome)

/-- Loads a library by its bare name. -/
def loadLibrary (r : Registry) (s : System) (name : String) : Outcome × Registry × System :=
  r.load s (.bare name)

/-- Loads the library at a path. -/
def loadPath (r : Registry) (s : System) (path : Path) : Outcome × Registry × System :=
  r.load s (.file path)

/-- What the load of a key answered; a key that was not loaded is an error. -/
def require (r : Registry) (key : String) : Outcome :=
  (r.find? key).getD (.error (.notLoaded key))

/-- The library of a key, if it was loaded. -/
def get? (r : Registry) (key : String) : Option Library :=
  match r.require key with
  | .ok library => some library
  | .error _ => none

/-- Whether the library of a key was loaded. -/
def isLoaded (r : Registry) (key : String) : Bool :=
  (r.get? key).isSome

/-- The keys of all libraries that were loaded, in ascending order. -/
def loaded (r : Registry) : List String :=
  ascending ((r.outcomes.filter (·.2.isOk)).map (·.1))

end Registry

end JniLink
