import JniLink.Json.Basic
import JniLink.Text.Hex
import JniLink.Text.Search
import JniLink.Text.Utf16

/-!
# Reading JSON

A strict reader: one value with blanks around it, no comments, no trailing commas, no control
characters in strings. Strings are read as UTF-16 units, so that two escapes make one character if
they are a surrogate pair. Every value is shorter than the text it is read from, so the length of
the text bounds how deep values nest.
-/

namespace JniLink.Json

open JniLink.Text

/-- The four characters that JSON takes for blank. -/
def isJsonBlank (c : Char) : Bool := c == ' ' || c == '\t' || c == '\n' || c == '\r'

/-- Drops the blanks in front. -/
def skipBlanks (t : List Char) : List Char :=
  t.dropWhile isJsonBlank

/-- The unit that a one-letter escape stands for. -/
def escape? : Char → Option UInt16
  | '"' => some 0x22 | '\\' => some 0x5C | '/' => some 0x2F
  | 'b' => some 0x08 | 'f' => some 0x0C | 'n' => some 0x0A | 'r' => some 0x0D | 't' => some 0x09
  | _ => none

/-- The units of a string behind its opening quote, and the rest behind its closing one. -/
def readUnits? : List Char → Option (List UInt16 × List Char)
  | [] => none
  | '"' :: r => some ([], r)
  | '\\' :: 'u' :: a :: b :: c :: d :: r =>
    match Hex.number? [a, b, c, d], readUnits? r with
    | some n, some (units, rest) => some (UInt16.ofNat n :: units, rest)
    | _, _ => none
  | '\\' :: e :: r =>
    match escape? e, readUnits? r with
    | some u, some (units, rest) => some (u :: units, rest)
    | _, _ => none
  | c :: r =>
    if c.toNat < 0x20 then none
    else (readUnits? r).map fun (units, rest) => (Utf16.encodeChar c ++ units, rest)

/-- A string behind its opening quote; no text if a surrogate in it stands alone. -/
def readString? (t : List Char) : Option (Option String × List Char) :=
  (readUnits? t).map fun (units, rest) => ((Utf16.decode? units).map String.ofList, rest)

/-- A nonempty run of digits. -/
def digits? (t : List Char) : Option (List Char × List Char) :=
  match t.takeWhile Char.isDigit with
  | [] => none
  | taken => some (taken, t.dropWhile Char.isDigit)

/-- The digits before the point: a zero, or digits that do not begin with one. -/
def wholePart? : List Char → Option (List Char × List Char)
  | '0' :: r => some (['0'], r)
  | t => digits? t

/-- The point and the digits behind it; nothing if there is no point. -/
def fraction? : List Char → Option (List Char × List Char)
  | '.' :: r => (digits? r).map fun (taken, rest) => ('.' :: taken, rest)
  | t => some ([], t)

/-- The sign in front of the digits of an exponent. -/
def exponentSign : List Char → List Char × List Char
  | '+' :: r => (['+'], r)
  | '-' :: r => (['-'], r)
  | t => ([], t)

/-- The exponent; nothing if there is none. -/
def exponent? (t : List Char) : Option (List Char × List Char) :=
  match t with
  | c :: r =>
    if c = 'e' ∨ c = 'E' then
      let (sign, r) := exponentSign r
      (digits? r).map fun (taken, rest) => (c :: sign ++ taken, rest)
    else some ([], t)
  | [] => some ([], [])

/-- A number. -/
def readNumber? (t : List Char) : Option (Json × List Char) := do
  let (sign, t) := match t with
    | '-' :: r => (['-'], r)
    | t => ([], t)
  let (whole, t) ← wholePart? t
  let (fraction, t) ← fraction? t
  let (exponent, t) ← exponent? t
  return (.number (String.ofList (sign ++ whole ++ fraction ++ exponent)), t)

/-- Items with commas between them up to the closing mark, at least one. -/
def readItems? {α : Type} (item : List Char → Option (α × List Char)) (closing : Char) :
    Nat → List Char → Option (List α × List Char)
  | 0, _ => none
  | bound + 1, t =>
    match item t with
    | none => none
    | some (x, rest) =>
      match skipBlanks rest with
      | [] => none
      | c :: rest =>
        if c = closing then some ([x], rest)
        else if c = ',' then
          (readItems? item closing bound rest).map fun (xs, rest) => (x :: xs, rest)
        else none

/-- The items behind an opening mark, which may be none. -/
def readList? {α : Type} (item : List Char → Option (α × List Char)) (closing : Char)
    (t : List Char) : Option (List α × List Char) :=
  match skipBlanks t with
  | [] => none
  | c :: rest => if c = closing then some ([], rest) else readItems? item closing t.length t

/-- A name, a colon and a value. -/
def readMember? (value : List Char → Option (Json × List Char)) (t : List Char) :
    Option ((Option String × Json) × List Char) := do
  let t ← stripStart? ['"'] (skipBlanks t)
  let (name, t) ← readString? t
  let t ← stripStart? [':'] (skipBlanks t)
  let (value, t) ← value t
  return ((name, value), t)

/-- A value that nests at most as deep as the bound. -/
def readValue? : Nat → List Char → Option (Json × List Char)
  | 0, _ => none
  | bound + 1, t =>
    match skipBlanks t with
    | [] => none
    | '"' :: r => (readString? r).map fun (text, rest) => (.string text, rest)
    | '[' :: r => (readList? (readValue? bound) ']' r).map fun (xs, rest) => (.array xs, rest)
    | '\x7b' :: r =>
      (readList? (readMember? (readValue? bound)) '\x7d' r).map
        fun (xs, rest) => (.object xs, rest)
    | 'n' :: r => (stripStart? "ull".toList r).map fun rest => (.null, rest)
    | 't' :: r => (stripStart? "rue".toList r).map fun rest => (.boolean true, rest)
    | 'f' :: r => (stripStart? "alse".toList r).map fun rest => (.boolean false, rest)
    | t => readNumber? t

/-- Reads a text that is one JSON value. -/
def ofString? (text : String) : Option Json := do
  let (value, rest) ← readValue? (text.length + 1) text.toList
  if skipBlanks rest = [] then value else none

end JniLink.Json
