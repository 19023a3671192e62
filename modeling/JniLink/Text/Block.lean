import JniLink.Text.Search

/-!
# Marked blocks

A generated part of a text stands between an opening and a closing marker. `replaceBlock?` puts a
new block in its place, and takes whole lines for it: the blanks before the opening marker on its
line go, if nothing else stands there, and so does everything behind the closing marker on its line,
with the line feed. The closing marker is looked for from the start of the opening one on.
-/

namespace JniLink.Text

/-- The characters behind the last line feed. -/
def lastLine (t : List Char) : List Char :=
  (t.reverse.takeWhile (· != '\n')).reverse

/-- The characters up to the last line feed, it included. -/
def wholeLines (t : List Char) : List Char :=
  (t.reverse.dropWhile (· != '\n')).reverse

theorem wholeLines_append_lastLine (t : List Char) : wholeLines t ++ lastLine t = t := by
  rw [wholeLines, lastLine, ← List.reverse_append, List.takeWhile_append_dropWhile,
    List.reverse_reverse]

/-- The text without its last line, if only blanks stand there. -/
def dropBlankLine (t : List Char) : List Char :=
  if trim (lastLine t) = [] then wholeLines t else t

/-- The text behind the first line feed; nothing if there is none. -/
def afterLine (t : List Char) : List Char :=
  (t.dropWhile (· != '\n')).drop 1

/-- The text with the first marked block replaced; `none` if there is no such block. -/
def replaceBlock? (opening closing block t : List Char) : Option (List Char) :=
  match cut? opening t with
  | none => none
  | some (before, _) =>
    match cut? closing (t.drop before.length) with
    | none => none
    | some (_, after) => some (dropBlankLine before ++ block ++ afterLine after)

end JniLink.Text
