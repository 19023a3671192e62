import JniLink.Toml.Value

/-!
# Assembling TOML tables

The table that a document's statements build. While it is built, a table remembers how it came
about, which decides what may be added to it: a header opens a table once; a header of a table below
it does not count as opening it; a dotted key makes tables that only dotted keys beside it may add
to. An array of tables is written to through its last element. A value that is written out in one
place is closed.
-/

namespace JniLink.Toml

/-- How a table came about. -/
inductive Origin where
  /-- By its own header. -/
  | header
  /-- By the header of a table below it. -/
  | implied
  /-- By a dotted key. -/
  | dotted
  deriving DecidableEq, Repr

/-- A part of a document that is being built. -/
inductive Draft where
  | closed (value : Value)
  | table (origin : Origin) (entries : List (String × Draft))
  | tables (elements : List (List (String × Draft)))

/-- The entries of a table that is being built. -/
abbrev Entries := List (String × Draft)

namespace Entries

/-- What stands under a name. -/
def find? (e : Entries) (name : String) : Option Draft :=
  (List.find? (·.1 = name) e).map (·.2)

/-- Changes what stands under a name, in its place. -/
def replace (e : Entries) (name : String) (d : Draft) : Entries :=
  e.map fun entry => if entry.1 = name then (name, d) else entry

/-- Changes the table under a name, which is made as an implied one if it is missing. -/
def descend (e : Entries) (name : String) (change : Entries → Option Entries) : Option Entries :=
  match e.find? name with
  | none => (change []).map fun sub => e ++ [(name, .table .implied sub)]
  | some (.table origin sub) => (change sub).map fun sub => e.replace name (.table origin sub)
  | some (.tables elements) =>
    (change (elements.getLastD [])).map fun last =>
      e.replace name (.tables (elements.dropLast ++ [last]))
  | some (.closed _) => none

/-- Puts a value under a name of the table that a dotted key names. -/
def put (e : Entries) : List String → String → Value → Option Entries
  | [], name, value =>
    match e.find? name with
    | none => some (e ++ [(name, .closed value)])
    | some _ => none
  | key :: keys, name, value =>
    match e.find? key with
    | none => (put [] keys name value).map fun sub => e ++ [(key, .table .dotted sub)]
    | some (.table .dotted sub) =>
      (put sub keys name value).map fun sub => e.replace key (.table .dotted sub)
    | some (.table .implied sub) =>
      if keys = [] then none
      else (put sub keys name value).map fun sub => e.replace key (.table .implied sub)
    | some (.tables elements) =>
      if keys = [] then none
      else (put (elements.getLastD []) keys name value).map fun last =>
        e.replace key (.tables (elements.dropLast ++ [last]))
    | some (.table .header _) | some (.closed _) => none

/-- Opens the table of a header. A table that was implied before moves behind the others. -/
def openTable (e : Entries) : List String → Option Entries
  | [] => none
  | [name] =>
    match e.find? name with
    | none => some (e ++ [(name, .table .header [])])
    | some (.table .implied sub) =>
      some (e.filter (·.1 ≠ name) ++ [(name, .table .header sub)])
    | some _ => none
  | name :: names => e.descend name fun sub => openTable sub names

/-- Opens a new element of the array of tables of a header. -/
def openElement (e : Entries) : List String → Option Entries
  | [] => none
  | [name] =>
    match e.find? name with
    | none => some (e ++ [(name, .tables [[]])])
    | some (.tables elements) => some (e.replace name (.tables (elements ++ [[]])))
    | some _ => none
  | name :: names => e.descend name fun sub => openElement sub names

/-- Changes the table that a path of names leads to. -/
def change (e : Entries) (f : Entries → Option Entries) : List String → Option Entries
  | [] => f e
  | name :: names => e.descend name fun sub => change sub f names

end Entries

mutual

/-- The value of a finished part. -/
def Draft.value : Draft → Value
  | .closed value => value
  | .table _ entries => .table (entryValues entries)
  | .tables elements => .array (elementValues elements)

/-- The entries of a finished table. -/
def entryValues : List (String × Draft) → Table
  | [] => []
  | (name, draft) :: rest => (name, draft.value) :: entryValues rest

/-- The elements of a finished array of tables. -/
def elementValues : List (List (String × Draft)) → List Value
  | [] => []
  | entries :: rest => .table (entryValues entries) :: elementValues rest

end

/-- Adds a statement to what is built so far, in the table that the last header opened. -/
def addStatement (state : Entries × List String) : Statement → Option (Entries × List String)
  | .header path => (state.1.openTable path).map (·, path)
  | .element path => (state.1.openElement path).map (·, path)
  | .pair path name value =>
    (state.1.change (·.put path name value) state.2).map (·, state.2)

/-- The table that statements build; none if they contradict each other. -/
def assemble? (statements : List Statement) : Option Table :=
  (statements.foldlM addStatement (([], []) : Entries × List String)).map (entryValues ·.1)

/-- The table of dotted keys and values between braces. -/
def inlineTable? (entries : List (List String × String × Value)) : Option Table :=
  (entries.foldlM (fun e (path, name, value) => Entries.put e path name value) []).map entryValues

end JniLink.Toml
