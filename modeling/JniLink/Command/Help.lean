import JniLink.Command.Arguments
import JniLink.Text.Column

/-!
# Help

The texts that explain the program and its commands: what it does, how a command line of it looks,
and a list of everything that can be given. A usage has all that is said in them.
-/

namespace JniLink

open JniLink.Text

/-- The option that asks for help. -/
def helpOption : CommandOption :=
  { long := "help", short := some 'h', about := "Print help" }

/-- How an operand is called. -/
def Operand.label (o : Operand) : String := s!"<{o.name}>"

/-- How an option is given. -/
def CommandOption.label (o : CommandOption) : String :=
  let short := (o.short.map fun c => s!"-{c}, ").getD "    "
  let value := (o.value.map fun (_, name) => s!" <{name}>").getD ""
  s!"{short}--{o.long}{value}"

/-- What is said about an option, with the value that counts without it. -/
def CommandOption.description (o : CommandOption) : String :=
  let fallback := (o.fallback.map fun text => s!" [default: {text}]").getD ""
  s!"{o.about}{fallback}"

/-- A text of help: what something does, how it is called, and lists under their titles. -/
def helpText (about call : String) (lists : List (String × List (String × String))) : String :=
  let lists := lists.filter fun (_, rows) => !rows.isEmpty
  s!"{about}\n\nUsage: {call}\n" ++
    String.join (lists.map fun (title, rows) => s!"\n{title}:\n" ++ glossary rows)

/-- The list of some options. -/
def optionRows (options : List CommandOption) : List (String × String) :=
  options.map fun o => (o.label, o.description)

/-- The help of a command. -/
def Usage.help (u : Usage) (call : String) : String :=
  helpText u.about (" ".intercalate (call :: "[OPTIONS]" :: u.operands.map Operand.label))
    [("Arguments", u.operands.map fun o => (o.label, o.about)),
      ("Options", optionRows (u.options ++ [helpOption]))]

end JniLink
