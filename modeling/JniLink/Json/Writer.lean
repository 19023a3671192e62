import JniLink.Json.Basic
import JniLink.Text.Hex

/-!
# Writing JSON

A value over several lines: every element and member stands on its own line, two spaces further in
than what holds it, and an empty array or object on none. Only what has to be escaped is escaped.
-/

namespace JniLink.Json

open JniLink.Text

/-- How a character is written in a string. -/
def writeChar (c : Char) : List Char :=
  match c with
  | '"' => ['\\', '"']
  | '\\' => ['\\', '\\']
  | '\x08' => ['\\', 'b']
  | '\x0c' => ['\\', 'f']
  | '\n' => ['\\', 'n']
  | '\r' => ['\\', 'r']
  | '\t' => ['\\', 't']
  | c => if c.toNat < 0x20 then ['\\', 'u'] ++ Hex.four Hex.lower c.toNat else [c]

/-- A string between quotes. -/
def writeString (text : String) : String :=
  String.ofList ('"' :: text.toList.flatMap writeChar ++ ['"'])

/-- A line break and the spaces of a level. -/
def newline (level : Nat) : String :=
  String.ofList ('\n' :: List.replicate (2 * level) ' ')

mutual

/-- A value whose inner lines stand one level further in. -/
def writeAt (level : Nat) : Json → String
  | .null => "null"
  | .boolean b => if b then "true" else "false"
  | .number text => text
  | .string text => writeString (text.getD "")
  | .array [] => "[]"
  | .array (x :: xs) => "[" ++ writeElements (level + 1) (x :: xs) ++ newline level ++ "]"
  | .object [] => "\x7b\x7d"
  | .object (x :: xs) => "\x7b" ++ writeMembers (level + 1) (x :: xs) ++ newline level ++ "\x7d"

/-- The elements of an array, each on its line. -/
def writeElements (level : Nat) : List Json → String
  | [] => ""
  | [x] => newline level ++ writeAt level x
  | x :: xs => newline level ++ writeAt level x ++ "," ++ writeElements level xs

/-- The members of an object, each on its line. -/
def writeMembers (level : Nat) : List (Option String × Json) → String
  | [] => ""
  | [(name, x)] => newline level ++ writeString (name.getD "") ++ ": " ++ writeAt level x
  | (name, x) :: xs =>
    newline level ++ writeString (name.getD "") ++ ": " ++ writeAt level x ++ "," ++
      writeMembers level xs

end

/-- A value over several lines. -/
def write (value : Json) : String :=
  writeAt 0 value

end JniLink.Json
