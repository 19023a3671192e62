/-!
# TOML values

The values of a TOML document, and the statements that a document is made of: a header that opens a
table, a header that opens a new element of an array of tables, and a key with its value. A table
keeps its entries in the order of the document. Numbers with a fraction and dates are kept by their
text, since nothing is computed with them.
-/

namespace JniLink.Toml

/-- A TOML value. -/
inductive Value where
  | string (text : String)
  | integer (n : Int)
  | float (text : String)
  | boolean (b : Bool)
  | datetime (text : String)
  | array (elements : List Value)
  | table (entries : List (String × Value))
  deriving Repr, Inhabited

/-- The entries of a table. -/
abbrev Table := List (String × Value)

/-- One statement of a document; a key is a path of names. -/
inductive Statement where
  | header (path : List String)
  | element (path : List String)
  | pair (path : List String) (name : String) (value : Value)
  deriving Repr, Inhabited

/-- The value of a key. -/
def Table.find? (t : Table) (name : String) : Option Value :=
  (List.find? (·.1 = name) t).map (·.2)

/-- A table. -/
def Value.isTable : Value → Bool
  | .table _ => true
  | _ => false

/-- A value with headers of its own: a table, or an array of tables. -/
def Value.isSection : Value → Bool
  | .table _ => true
  | .array elements => !elements.isEmpty && elements.all Value.isTable
  | _ => false

/-- The entries of a table that have no headers of their own, as statements. -/
def pairs (entries : Table) : List Statement :=
  entries.filterMap fun (name, value) => if value.isSection then none else some (.pair [] name value)

mutual

/-- The statements of a value with headers of its own. A table has a header if it has entries
without headers, or none at all. -/
def Value.statements (path : List String) : Value → List Statement
  | .table entries =>
    (if entries.isEmpty || entries.any (!·.2.isSection) then [.header path] else []) ++
      pairs entries ++ sectionStatements path entries
  | .array elements => elementStatements path elements
  | _ => []

/-- The statements of all entries with headers of their own. -/
def sectionStatements (path : List String) : List (String × Value) → List Statement
  | [] => []
  | (name, value) :: rest =>
    (if value.isSection then value.statements (path ++ [name]) else []) ++
      sectionStatements path rest

/-- The statements of the elements of an array of tables. -/
def elementStatements (path : List String) : List Value → List Statement
  | [] => []
  | .table entries :: rest =>
    .element path :: pairs entries ++ sectionStatements path entries ++ elementStatements path rest
  | _ :: rest => elementStatements path rest

end

/-- The statements that make a document of a table: entries without headers come first. -/
def Table.statements (t : Table) : List Statement :=
  pairs t ++ sectionStatements [] t

end JniLink.Toml
