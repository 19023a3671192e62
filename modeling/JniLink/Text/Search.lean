import JniLink.Text.Blank

/-!
# Searching text

The first occurrence of a text in another splits it in two (`cut?`); everything that looks for a
marker or a separator is said through that split, so that no position has to be carried around.
`firstMatch?` and `allMatches` walk a text with a recogniser that reads at a place and sees the character
before it: the leftmost place wins, and the walk goes on behind what was read.
-/

namespace JniLink.Text

/-- The text behind `opening`, if it begins so. -/
def stripStart? : List Char → List Char → Option (List Char)
  | [], t => some t
  | _ :: _, [] => none
  | p :: ps, c :: r => if p = c then stripStart? ps r else none

theorem stripStart?_eq_some_iff {opening t rest : List Char} :
    stripStart? opening t = some rest ↔ t = opening ++ rest := by
  induction opening generalizing t with
  | nil => simp [stripStart?]
  | cons p ps ih =>
    cases t with
    | nil => simp [stripStart?]
    | cons c r =>
      by_cases h : p = c
      · simp [stripStart?, h, ih]
      · simp [stripStart?, h, Ne.symm h]

/-- The text without `ending`, if it ends so. -/
def stripEnd? (ending t : List Char) : Option (List Char) :=
  (stripStart? ending.reverse t.reverse).map List.reverse

theorem stripEnd?_eq_some_iff {ending t rest : List Char} :
    stripEnd? ending t = some rest ↔ t = rest ++ ending := by
  simp only [stripEnd?, Option.map_eq_some_iff, stripStart?_eq_some_iff]
  constructor
  · rintro ⟨s, hs, rfl⟩
    simpa using congrArg List.reverse hs
  · rintro rfl
    exact ⟨rest.reverse, by simp, by simp⟩

/-- The text before and after the first occurrence of `pat`. -/
def cut? (pat : List Char) : List Char → Option (List Char × List Char)
  | [] => if pat = [] then some ([], []) else none
  | c :: r =>
    match stripStart? pat (c :: r) with
    | some rest => some ([], rest)
    | none => (cut? pat r).map fun (before, after) => (c :: before, after)

/-- The lines of a text. A line ends with a line feed, which is dropped together with one carriage
return before it; a text that ends with a line feed has no empty line behind it. -/
def lines (t : List Char) : List (List Char) :=
  let pieces := splitWhere (· == '\n') t
  let ended := pieces.dropLast.map fun line => (stripEnd? ['\r'] line).getD line
  match pieces.getLast? with
  | none | some [] => ended
  | some last => ended ++ [last]

/-- A class name with dots between its parts, which may be given with slashes. -/
def dotted (name : String) : String :=
  String.ofList (name.toList.map fun c => if c = '/' then '.' else c)

/-- Puts `sep` between the parts. -/
def joinWith (sep : List Char) : List (List Char) → List Char
  | [] => []
  | [part] => part
  | part :: parts => part ++ sep ++ joinWith sep parts

/-- A recogniser reads at a place in a text: given the character before the place and the text from
it on, it answers what it read and the text behind it, or `none`. -/
abbrev Recogniser (α : Type) := Option Char → List Char → Option (α × List Char)

/-- What the recogniser reads at the first place where it reads anything. -/
def firstMatch? {α : Type} (m : Recogniser α) : Option Char → List Char → Option (α × List Char)
  | before, [] => m before []
  | before, c :: r =>
    match m before (c :: r) with
    | some found => some found
    | none => firstMatch? m (some c) r

/-- Everything the recogniser reads from left to right. After something was read the walk goes on
behind it; `skip` counts the characters that are read already. -/
def allMatches {α : Type} (m : Recogniser α) : Option Char → Nat → List Char → List α
  | _, _, [] => []
  | _, skip + 1, c :: r => allMatches m (some c) skip r
  | before, 0, c :: r =>
    match m before (c :: r) with
    | some (found, rest) => found :: allMatches m (some c) (r.length - rest.length) r
    | none => allMatches m (some c) 0 r

end JniLink.Text
