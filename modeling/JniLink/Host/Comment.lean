/-!
# Comments of a host source

A host source without its comments. One pass over the characters knows where it is (`Mode`): in code,
behind a slash that may open a comment, in a literal, in a comment. A line comment runs to its line
feed and leaves it standing; a block comment leaves the line feeds inside it, so that every line
keeps its number. Block comments do not nest. A literal is closed by the quote mark that opened it,
in whatever line that stands, and a backslash keeps the next character from closing it.
-/

namespace JniLink.Host

/-- Where the pass is. -/
inductive Mode where
  | code
  /-- Behind a slash in code, which is still to be written out if no comment begins with it. -/
  | slash
  | literal (mark : Char)
  /-- Behind a backslash in a literal. -/
  | escaped (mark : Char)
  | lineComment
  /-- In a block comment; the flag says that the last character was a star. -/
  | blockComment (star : Bool)
  deriving DecidableEq, Repr

namespace Mode

/-- A character in code: where the pass is behind it, and what it writes. -/
def stepCode (c : Char) : Mode × List Char :=
  if c = '"' ∨ c = '\'' then (.literal c, [c])
  else if c = '/' then (.slash, [])
  else (.code, [c])

/-- Where the pass is behind a character, and what it writes for it. -/
def step : Mode → Char → Mode × List Char
  | .code, c => stepCode c
  | .slash, c =>
    if c = '/' then (.lineComment, [])
    else if c = '*' then (.blockComment false, [])
    else ((stepCode c).1, '/' :: (stepCode c).2)
  | .literal mark, c =>
    (if c = '\\' then .escaped mark else if c = mark then .code else .literal mark, [c])
  | .escaped mark, c => (.literal mark, [c])
  | .lineComment, c => if c = '\n' then (.code, ['\n']) else (.lineComment, [])
  | .blockComment star, c =>
    if star ∧ c = '/' then (.code, [])
    else (.blockComment (c = '*'), if c = '\n' then ['\n'] else [])

/-- What is still to be written when the text ends. -/
def flush : Mode → List Char
  | .slash => ['/']
  | _ => []

/-- Where the pass is behind a whole text. -/
def after (m : Mode) (t : List Char) : Mode :=
  t.foldl (fun m c => (m.step c).1) m

end Mode

/-- The text from a mode on without comments. -/
def stripFrom : Mode → List Char → List Char
  | m, [] => m.flush
  | m, c :: r => (m.step c).2 ++ stripFrom (m.step c).1 r

/-- The text without comments. -/
def stripComments (t : List Char) : List Char :=
  stripFrom .code t

end JniLink.Host
