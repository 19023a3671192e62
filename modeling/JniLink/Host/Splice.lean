import JniLink.Host.Block
import JniLink.Host.Pattern
import JniLink.Host.Source

/-!
# Splicing declarations into a class

The marked block of declarations is written into a host source: over an earlier block if there is
one anywhere in the text, or else behind the opening brace of the named class. The header of the
class is looked for line by line: an indent, modifiers, `class` or `object`, the name as a whole
word, and then the first brace, wherever it stands. Its indent and four spaces indent the block.
-/

namespace JniLink.Host

open JniLink.Text

/-- A space or a tab. -/
def isSpaceOrTab (c : Char) : Bool := c == ' ' || c == '\t'

/-- A character of the words before `class`. -/
def isHeaderChar (c : Char) : Bool :=
  isWord c || c == '@' || c == '.' || c == '(' || c == ')'

/-- One word of a header and the spaces behind it. -/
def headerWord? (t : List Char) : Option (List Char) := do
  let (_, t) ← run? isHeaderChar t
  let (_, t) ← run? isSpaceOrTab t
  return t

theorem length_headerWord? {t r : List Char} (h : headerWord? t = some r) :
    r.length < t.length := by
  simp only [headerWord?, Option.bind_eq_bind, Option.bind_eq_some_iff, Option.pure_def,
    Option.some.injEq, Prod.exists] at h
  obtain ⟨_, s, h1, _, s', h2, rfl⟩ := h
  have := length_run? h1
  have := length_run? h2
  omega

/-- The places behind as many words as there are, behind one fewer, and so on. -/
def afterHeaderWords (t : List Char) : List (List Char) :=
  match h : headerWord? t with
  | some r =>
    have : r.length < t.length := length_headerWord? h
    afterHeaderWords r ++ [t]
  | none => [t]
termination_by t.length

/-- The places behind all of the spaces and tabs in front, behind one fewer, and so on, down to one.
A class name that itself begins with such a character makes more than one of them matter. -/
def afterSpaces (t : List Char) : List (List Char) :=
  match t with
  | c :: r => if isSpaceOrTab c then afterSpaces r ++ [r] else []
  | [] => []

/-- The name of a class as a whole word, and the text behind the next brace. -/
def nameAndBrace? (name t : List Char) : Option (List Char) := do
  let rest ← stripStart? name t
  if isBoundary (name.getLast?.or (some ' ')) rest then
    return (← upTo? '\x7b' rest).2
  else none

/-- `class` or `object`, the name, and the text behind the next brace. -/
def classNamed? (name t : List Char) : Option (List Char) := do
  let t ← stripStart? "class".toList t <|> stripStart? "object".toList t
  (afterSpaces t).findSome? (nameAndBrace? name)

/-- The header of a class at the start of a line: its indent. -/
def classOpening (name : List Char) : Recogniser (List Char) := fun before t =>
  if before.all (· == '\n') then do
    let rest ← (afterHeaderWords (t.dropWhile isSpaceOrTab)).findSome? (classNamed? name)
    return (t.takeWhile isSpaceOrTab, rest)
  else none

/-- Drops the line ends in front. -/
def dropLineEnds (t : List Char) : List Char :=
  t.dropWhile fun c => c == '\r' || c == '\n'

/-- Writes declarations into the class with a simple name. -/
def spliceText (content name : List Char) (library : String) (decls : List Declaration)
    (language : Language) : Except HostError (List Char) :=
  match firstMatch? (classOpening name) none content with
  | none => .error .missingClass
  | some (indent, rest) =>
    let block := blockText library decls language (indent ++ "    ".toList)
    match replaceBlock? blockOpening blockClosing block content with
    | some updated => .ok updated
    | none =>
      let head := content.take (content.length - rest.length)
      .ok (head ++ '\n' :: block ++ '\n' :: dropLineEnds rest)

/-- Writes declarations into the class with a simple name. -/
def splice (content name : String) (library : String) (decls : List Declaration)
    (language : Language) : Except HostError String :=
  (spliceText content.toList name.toList library decls language).map String.ofList

end JniLink.Host
