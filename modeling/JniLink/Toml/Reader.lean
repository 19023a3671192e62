import JniLink.Toml.Assembly
import JniLink.Toml.Scalar
import JniLink.Toml.Writer

/-!
# Reading TOML

A document is read line by line into statements, which are then assembled. Arrays and tables between
braces nest at most `depthLimit` deep, and a key has fewer names than that.
-/

namespace JniLink.Toml

open JniLink.Text

/-- How deep values nest, counting the outermost. -/
def depthLimit : Nat := 80

/-- Drops a comment, if there is one. -/
def skipComment : List Char → List Char
  | '#' :: r => r.dropWhile isVisible
  | t => t

/-- Drops the end of a line: spaces, a comment, and the line break or the end of the text. -/
def lineEnd? (t : List Char) : Option (List Char) :=
  match skipComment (skipSpaces t) with
  | [] => some []
  | t => newline? t

/-- One name of a key. -/
def name? (t : List Char) : Option (String × List Char) :=
  match t with
  | '"' :: r => (basic? 0 r).map fun (text, rest) => (String.ofList text, rest)
  | '\'' :: r => (literal? r).map fun (text, rest) => (String.ofList text, rest)
  | _ =>
    match t.takeWhile isBareChar with
    | [] => none
    | text => some (String.ofList text, t.dropWhile isBareChar)

/-- The names of a key with dots between them and spaces around them; the bound is the count of names
that it may still have. -/
def names? : Nat → List Char → Option (List String × List Char)
  | 0, _ => none
  | bound + 1, t =>
    match name? (skipSpaces t) with
    | none => none
    | some (name, rest) =>
      match skipSpaces rest with
      | '.' :: rest => (names? bound rest).map fun (names, rest) => (name :: names, rest)
      | rest => some ([name], rest)

/-- A key. -/
def key? (t : List Char) : Option (List String × List Char) :=
  names? (depthLimit - 1) t

/-- Drops spaces, comments and line breaks between the elements of an array. The bound is the length
of the text. -/
def skipBetween : Nat → List Char → List Char
  | 0, t => t
  | bound + 1, t =>
    match newline? (skipComment (skipSpaces t)) with
    | some rest => skipBetween bound rest
    | none => skipSpaces t

/-- The elements of an array behind its opening bracket. The bound is the count of elements that may
still come. -/
def elements? (value : List Char → Option (Value × List Char)) :
    Nat → List Char → Option (List Value × List Char)
  | 0, _ => none
  | bound + 1, t =>
    match skipBetween t.length t with
    | ']' :: rest => some ([], rest)
    | t =>
      match value t with
      | none => none
      | some (v, rest) =>
        match skipBetween rest.length rest with
        | ']' :: rest => some ([v], rest)
        | ',' :: rest =>
          (elements? value bound rest).map fun (vs, rest) => (v :: vs, rest)
        | _ => none

/-- A key and a value with an equals sign between them. -/
def pair? (value : List Char → Option (Value × List Char)) (t : List Char) :
    Option ((List String × String × Value) × List Char) := do
  let (names, t) ← key? t
  let t ← stripStart? ['='] t
  let (v, t) ← value (skipSpaces t)
  return ((names.dropLast, names.getLastD "", v), t)

/-- The entries of a table between braces, one at least. The bound is the count of entries that may
still come. -/
def entries? (value : List Char → Option (Value × List Char)) :
    Nat → List Char → Option (List (List String × String × Value) × List Char)
  | 0, _ => none
  | bound + 1, t =>
    match pair? value t with
    | none => none
    | some (entry, rest) =>
      match skipSpaces rest with
      | '\x7d' :: rest => some ([entry], rest)
      | ',' :: rest => (entries? value bound rest).map fun (es, rest) => (entry :: es, rest)
      | _ => none

/-- A value that nests so many levels at most. -/
def value? : Nat → List Char → Option (Value × List Char)
  | 0, t => scalar? t
  | bound + 1, t =>
    match t with
    | '[' :: r => (elements? (value? bound) t.length r).map fun (vs, rest) => (.array vs, rest)
    | '\x7b' :: r =>
      match skipSpaces r with
      | '\x7d' :: rest => some (.table [], rest)
      | _ => do
        let (entries, rest) ← entries? (value? bound) t.length r
        return (.table (← inlineTable? entries), rest)
    | t => scalar? t

/-- A header or a pair, with the end of its line. -/
def statement? (t : List Char) : Option (Statement × List Char) :=
  match t with
  | '[' :: '[' :: r => do
    let (path, r) ← key? r
    return (.element path, ← lineEnd? (← stripStart? "]]".toList r))
  | '[' :: r => do
    let (path, r) ← key? r
    return (.header path, ← lineEnd? (← stripStart? "]".toList r))
  | t => do
    let ((path, name, value), r) ← pair? (value? (depthLimit - 1)) t
    return (.pair path name value, ← lineEnd? r)

/-- The statements of a document. The bound is the count of lines that may still come. -/
def statements? : Nat → List Char → Option (List Statement)
  | 0, _ => none
  | bound + 1, t =>
    match skipSpaces t with
    | [] => some []
    | '#' :: r =>
      match lineEnd? ('#' :: r) with
      | some rest => statements? bound rest
      | none => none
    | t =>
      match newline? t with
      | some rest => statements? bound rest
      | none =>
        match statement? t with
        | some (statement, rest) => (statements? bound rest).map (statement :: ·)
        | none => none

/-- Drops the mark that a file of text may begin with. -/
def skipMark : List Char → List Char
  | '\uFEFF' :: r => r
  | t => t

/-- The table that a document spells. -/
def ofString? (text : String) : Option Table :=
  let t := skipMark text.toList
  (statements? (t.length + 1) t).bind assemble?

end JniLink.Toml
