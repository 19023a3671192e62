/-!
# Columns

Texts that are filled up with blanks, so that what stands behind them lines up.
-/

namespace JniLink.Text

/-- A text filled up with blanks to a width. -/
def column (width : Nat) (text : String) : String :=
  text ++ String.ofList (List.replicate (width - text.length) ' ')

/-- The length of the longest text. -/
def widest (texts : List String) : Nat :=
  texts.foldl (fun width text => max width text.length) 0

/-- A list of terms and what is said about them, one to a line: the terms are set in by two blanks,
and the texts begin two blanks behind the longest of them. -/
def glossary (rows : List (String × String)) : String :=
  let width := widest (rows.map (·.1))
  String.join (rows.map fun (term, text) => "  " ++ column width term ++ "  " ++ text ++ "\n")

end JniLink.Text
