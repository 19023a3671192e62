import JniLink.Text.Hex
import JniLink.Text.Search
import JniLink.Toml.Value

/-!
# Writing TOML

A document as text, statement by statement, with an empty line before every header that is not at
the beginning. A string is written in the first of four styles that can hold it as it is, and with
escapes if none can: between quotes, between apostrophes, and both of these three times over for
more than one line. An array of more than one element has a line for each.
-/

namespace JniLink.Toml

open JniLink.Text

/-- A control character that no style can hold as it is. -/
def isControl (c : Char) : Bool :=
  (c.toNat < 0x20 && c != '\t' && c != '\n') || c.toNat == 0x7F

/-- The longest run of a character in a text; the first argument is the length of the run that ends
at the head. -/
def longestRun (mark : Char) : Nat → List Char → Nat
  | run, [] => run
  | run, c :: r => if c = mark then longestRun mark (run + 1) r else max run (longestRun mark 0 r)

/-- The styles of a string. -/
inductive StringStyle where
  | quotes | apostrophes | tripleQuotes | tripleApostrophes
  deriving DecidableEq, Repr

/-- Whether a style can hold a text without escapes, but for tabs. -/
def StringStyle.holds (t : List Char) : StringStyle → Bool
  | .quotes => !t.any fun c => isControl c || c == '\n' || c == '\\' || c == '"'
  | .apostrophes => !t.any fun c => isControl c || c == '\n' || c == '\''
  | .tripleQuotes => !(t.any fun c => isControl c || c == '\\') && longestRun '"' 0 t ≤ 2
  | .tripleApostrophes => !t.any isControl && longestRun '\'' 0 t ≤ 2

/-- The style in which a text is written. -/
def StringStyle.ofText (t : List Char) : StringStyle :=
  (([.quotes, .apostrophes, .tripleQuotes, .tripleApostrophes] : List StringStyle).find?
    (·.holds t)).getD (if '\n' ∈ t then .tripleQuotes else .quotes)

/-- How a character is written between quotes. -/
def escapeChar (c : Char) : List Char :=
  match c with
  | '\x08' => ['\\', 'b']
  | '\t' => ['\\', 't']
  | '\n' => ['\\', 'n']
  | '\x0c' => ['\\', 'f']
  | '\r' => ['\\', 'r']
  | '"' => ['\\', '"']
  | '\\' => ['\\', '\\']
  | c => if isControl c then ['\\', 'u'] ++ Hex.four Hex.upper c.toNat else [c]

/-- How a text is written between triple quotes: line feeds stay, and so do two quotes out of three
in a row. The first argument counts the quotes right before the head. -/
def escapeLines : Nat → List Char → List Char
  | _, [] => []
  | _, '\n' :: r => '\n' :: escapeLines 0 r
  | quotes, '"' :: r =>
    if quotes < 2 then '"' :: escapeLines (quotes + 1) r else '\\' :: '"' :: escapeLines 0 r
  | _, c :: r => escapeChar c ++ escapeLines 0 r

/-- The line break behind an opening triple mark, which stands there if the text has any. -/
def openingBreak (t : List Char) : List Char :=
  if '\n' ∈ t then ['\n'] else []

/-- A text in a style. -/
def StringStyle.write (t : List Char) : StringStyle → List Char
  | .quotes => '"' :: t.flatMap escapeChar ++ ['"']
  | .apostrophes => '\'' :: t ++ ['\'']
  | .tripleQuotes => "\"\"\"".toList ++ openingBreak t ++ escapeLines 0 t ++ "\"\"\"".toList
  | .tripleApostrophes => "'''".toList ++ openingBreak t ++ t ++ "'''".toList

/-- A string as a value. -/
def writeString (text : String) : List Char :=
  (StringStyle.ofText text.toList).write text.toList

/-- A character of a name that needs no quotes. -/
def isBareChar (c : Char) : Bool := c.isAlphanum || c == '_' || c == '-'

/-- A name of a key: bare if it can be, or in one of the styles of one line. -/
def writeName (name : String) : List Char :=
  let t := name.toList
  if t ≠ [] ∧ t.all isBareChar then t
  else if StringStyle.quotes.holds t then StringStyle.quotes.write t
  else if StringStyle.apostrophes.holds t then StringStyle.apostrophes.write t
  else StringStyle.quotes.write t

/-- A key: its names with dots between them. -/
def writePath (path : List String) : List Char :=
  joinWith ['.'] (path.map writeName)

mutual

/-- A value on one line. -/
def Value.write : Value → List Char
  | .string text => writeString text
  | .integer n => (toString n).toList
  | .float text => text.toList
  | .boolean b => if b then "true".toList else "false".toList
  | .datetime text => text.toList
  | .array elements => '[' :: joinWith ", ".toList (writeElements elements) ++ [']']
  | .table entries =>
    "\x7b ".toList ++ joinWith ", ".toList (writeEntries entries) ++ " \x7d".toList

/-- The elements of an array. -/
def writeElements : List Value → List (List Char)
  | [] => []
  | value :: rest => value.write :: writeElements rest

/-- The entries of a table. -/
def writeEntries : List (String × Value) → List (List Char)
  | [] => []
  | (name, value) :: rest =>
    (writeName name ++ " = ".toList ++ value.write) :: writeEntries rest

end

/-- The value of a statement: an array of more than one element has a line for each. -/
def Value.writeLines : Value → List Char
  | .array (first :: second :: rest) =>
    "[\n".toList ++
      ((first :: second :: rest).flatMap fun v => "    ".toList ++ v.write ++ ",\n".toList) ++ [']']
  | value => value.write

/-- A statement as text; the flag says that it is the first one. -/
def Statement.write (first : Bool) : Statement → List Char
  | .header path =>
    (if first then [] else ['\n']) ++ '[' :: writePath path ++ "]\n".toList
  | .element path =>
    (if first then [] else ['\n']) ++ "[[".toList ++ writePath path ++ "]]\n".toList
  | .pair path name value =>
    writePath (path ++ [name]) ++ " = ".toList ++ value.writeLines ++ ['\n']

/-- Statements as a document. -/
def writeStatements : List Statement → List Char
  | [] => []
  | first :: rest => first.write true ++ rest.flatMap (Statement.write false)

/-- The document of a table. -/
def Table.write (t : Table) : String :=
  String.ofList (writeStatements t.statements)

end JniLink.Toml
