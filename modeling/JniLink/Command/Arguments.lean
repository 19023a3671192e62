import JniLink.Text.Search

/-!
# Command arguments

How the words behind a command are read. A word with two hyphens is the long name of an option or a
flag, one with a single hyphen holds short names, and a lone `--` makes operands of all words behind
it. The value of an option is attached to its name or is the next word, which must not look like
a name. Nothing may be given twice, and no path may be empty.

The words are read one by one (`Reader.step`), and the first one that does not fit refuses them all.
-/

namespace JniLink

open JniLink.Text

/-- What kind of text is due. -/
inductive ArgumentKind where
  | text
  /-- A path, which is not empty. -/
  | path
  deriving DecidableEq, Repr

/-- Whether a text can stand where a kind of text is due. -/
def ArgumentKind.admits (kind : ArgumentKind) (text : String) : Bool :=
  match kind with
  | .text => true
  | .path => text ≠ ""

/-- An option; one without a value is a flag. -/
structure CommandOption where
  long : String
  short : Option Char := none
  /-- What kind of text its value is, and how help calls it. -/
  value : Option (ArgumentKind × String) := none
  about : String
  /-- The value that counts if the option is not given. -/
  fallback : Option String := none
  deriving DecidableEq, Repr

/-- An operand, which has to be given. -/
structure Operand where
  name : String
  kind : ArgumentKind
  about : String
  deriving DecidableEq, Repr

/-- What a command does, and what it takes. -/
structure Usage where
  about : String
  options : List CommandOption
  operands : List Operand := []
  deriving DecidableEq, Repr

/-- What a command was given. -/
structure Arguments where
  options : List (String × String) := []
  flags : List String := []
  operands : List String := []
  deriving DecidableEq, Repr

namespace Arguments

/-- The value of an option. -/
def option? (a : Arguments) (long : String) : Option String :=
  (a.options.find? (·.1 = long)).map (·.2)

/-- Whether a flag was given. -/
def hasFlag (a : Arguments) (long : String) : Bool :=
  a.flags.contains long

end Arguments

/-- A word of a command line. -/
inductive Word where
  /-- The word `--`. -/
  | escape
  /-- A long name, and what stands behind `=`. -/
  | long (name : String) (value : Option String)
  /-- What stands behind a single hyphen; it is not empty. -/
  | short (letters : List Char)
  | plain (text : String)
  deriving DecidableEq, Repr

/-- Tells words apart by their hyphens; a hyphen alone is a plain word. -/
def Word.ofText (text : String) : Word :=
  match text.toList with
  | ['-', '-'] => .escape
  | '-' :: '-' :: r =>
    match cut? ['='] r with
    | some (name, value) => .long (String.ofList name) (some (String.ofList value))
    | none => .long (String.ofList r) none
  | '-' :: c :: r => .short (c :: r)
  | _ => .plain text

/-- How far the words are read. -/
structure Reader where
  got : Arguments := {}
  /-- An option whose value is due. -/
  pending : Option CommandOption := none
  /-- Whether all further words are operands. -/
  escaped : Bool := false
  deriving DecidableEq, Repr

namespace Reader

/-- Takes the value of an option, which must not have one. -/
def takeOption (r : Reader) (option : CommandOption) (value : String) : Option Reader :=
  if (option.value.any (·.1.admits value)) && (r.got.option? option.long).isNone then
    some { r with
      got := { r.got with options := r.got.options ++ [(option.long, value)] }, pending := none }
  else none

/-- Takes a flag, which must not be given already. -/
def takeFlag (r : Reader) (flag : String) : Option Reader :=
  if r.got.hasFlag flag then none
  else some { r with got := { r.got with flags := r.got.flags ++ [flag] } }

/-- Takes an operand, if one more is due. -/
def takeOperand (r : Reader) (usage : Usage) (text : String) : Option Reader :=
  match usage.operands[r.got.operands.length]? with
  | none => none
  | some operand =>
    if operand.kind.admits text then
      some { r with got := { r.got with operands := r.got.operands ++ [text] } }
    else none

/-- Takes an option with the value that is attached to it, or waits for its value. -/
def takeName (r : Reader) (option : CommandOption) (attached : Option String) : Option Reader :=
  match option.value, attached with
  | some _, some value => r.takeOption option value
  | some _, none => some { r with pending := some option }
  | none, none => r.takeFlag option.long
  | none, some _ => none

/-- The value that is attached to a short name. -/
def attached : List Char → Option String
  | [] => none
  | '=' :: value => some (String.ofList value)
  | value => some (String.ofList value)

/-- Reads a word. -/
def step (usage : Usage) (r : Reader) (text : String) : Option Reader :=
  match r.pending, r.escaped, Word.ofText text with
  | none, true, _ => r.takeOperand usage text
  | some option, false, .plain value => r.takeOption option value
  | none, false, .plain operand => r.takeOperand usage operand
  | none, false, .escape => some { r with escaped := true }
  | none, false, .long name value =>
    (usage.options.find? (·.long = name)).bind (r.takeName · value)
  | none, false, .short letters =>
    (usage.options.find? (·.short = letters.head?)).bind (r.takeName · (attached letters.tail))
  | some _, _, _ => none

/-- What was read, if nothing is missing. -/
def finish? (usage : Usage) (r : Reader) : Option Arguments :=
  if r.pending.isNone ∧ r.got.operands.length = usage.operands.length then some r.got else none

end Reader

/-- Reads the words behind a command. -/
def Arguments.ofWords? (usage : Usage) (words : List String) : Option Arguments :=
  (words.foldlM (Reader.step usage) {}).bind (Reader.finish? usage)

end JniLink
