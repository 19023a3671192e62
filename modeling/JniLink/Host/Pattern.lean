import JniLink.Text.Search
import JniLink.Text.Word

/-!
# Recognisers for host sources

The places of a host source that matter to native code, each as a recogniser that reads at a place:
the package line, the header of a class, the loading of a library, and the declaration of a native
function in Kotlin and in Java. A recogniser takes whole words and runs of blanks, and never takes
back what it has read, but for one case: a Java modifier is given back to be the type if no type
follows it.
-/

namespace JniLink.Host

open JniLink.Text

/-- Drops at least one blank. -/
def blanks? (t : List Char) : Option (List Char) :=
  match t with
  | c :: r => if isBlank c then some (trimStart r) else none
  | [] => none

/-- A nonempty run of the characters that `p` picks. -/
def run? (p : Char → Bool) (t : List Char) : Option (List Char × List Char) :=
  match t.takeWhile p with
  | [] => none
  | taken => some (taken, t.dropWhile p)

theorem length_run? {p : Char → Bool} {t taken r : List Char} (h : run? p t = some (taken, r)) :
    r.length < t.length := by
  have hs := congrArg List.length (List.takeWhile_append_dropWhile (p := p) (l := t))
  rw [List.length_append] at hs
  unfold run? at h
  split at h
  · simp at h
  · next hne =>
    simp only [Option.some.injEq, Prod.mk.injEq] at h
    obtain ⟨-, rfl⟩ := h
    have : 0 < (t.takeWhile p).length := List.length_pos_iff.2 hne
    omega

/-- An identifier: an ASCII letter or underscore and word characters behind it. -/
def identifier? (t : List Char) : Option (List Char × List Char) :=
  match t with
  | c :: r => if isIdentifierStart c then some (c :: r.takeWhile isWord, r.dropWhile isWord) else none
  | [] => none

/-- `word` and blanks behind it. -/
def wordAndBlanks? (word : String) (t : List Char) : Option (List Char) :=
  (stripStart? word.toList t).bind blanks?

/-- `word` at the edge of a word, and blanks behind it. -/
def keyword? (word : String) (before : Option Char) (t : List Char) : Option (List Char) :=
  if isBoundary before t then wordAndBlanks? word t else none

/-- The text up to the mark, which is dropped. -/
def upTo? (mark : Char) (t : List Char) : Option (List Char × List Char) :=
  match t.dropWhile (· != mark) with
  | _ :: rest => some (t.takeWhile (· != mark), rest)
  | [] => none

/-- The name behind `package` at the start of a line; blank lines may stand before it. -/
def packageLine : Recogniser (List Char) := fun before t =>
  if before.all (· == '\n') then do
    let t ← wordAndBlanks? "package" (trimStart t)
    run? (fun c => isWord c || c == '.') t
  else none

/-- The name behind `class` or `object`. -/
def classHeader : Recogniser (List Char) := fun before t => do
  let t ← keyword? "class" before t <|> keyword? "object" before t
  identifier? t

/-- The name of a library that is loaded. -/
def libraryLoad : Recogniser (List Char) := fun _ t => do
  let t ← stripStart? "System.loadLibrary(".toList t
  let t ← stripStart? ['"'] (trimStart t)
  let (name, t) ← upTo? '"' t
  if name = [] then none
  let t ← stripStart? [')'] (trimStart t)
  return (name, t)

/-- A native function as a source declares it: its name, the text of its parameter list, and the
text of its result type if there is one. -/
structure Native where
  name : List Char
  params : List Char
  ret : Option (List Char)
  deriving DecidableEq, Repr

/-- A name and the parameter list behind it. -/
def nameAndParams? (t : List Char) : Option ((List Char × List Char) × List Char) := do
  let (name, t) ← identifier? t
  let t ← stripStart? ['('] (trimStart t)
  let (params, t) ← upTo? ')' t
  return ((name, params), t)

/-- A character of a Kotlin type as far as results are read. -/
def isKotlinTypeChar (c : Char) : Bool :=
  isWord c || c == '.' || c == '<' || c == '>' || c == '?'

/-- The result type behind a colon. -/
def kotlinResult? (t : List Char) : Option (List Char × List Char) := do
  let t ← stripStart? [':'] t
  run? isKotlinTypeChar (trimStart t)

/-- `external fun name(…)` with or without a result type. -/
def kotlinNative : Recogniser Native := fun before t => do
  let t ← keyword? "external" before t
  let t ← wordAndBlanks? "fun" t
  let ((name, params), t) ← nameAndParams? t
  match kotlinResult? (trimStart t) with
  | some (ret, t) => return (⟨name, params, some ret⟩, t)
  | none => return (⟨name, params, none⟩, trimStart t)

/-- A character of a Java type. -/
def isJavaTypeChar (c : Char) : Bool :=
  isWord c || c == '.' || c == '<' || c == '>' || c == '[' || c == ']'

/-- One of the words that may stand between `native` and the type, with the blanks behind it. -/
def javaModifier? (t : List Char) : Option (List Char) :=
  wordAndBlanks? "static" t <|> wordAndBlanks? "final" t <|> wordAndBlanks? "synchronized" t

theorem length_blanks? {t r : List Char} (h : blanks? t = some r) : r.length < t.length := by
  unfold blanks? at h
  split at h
  · split at h
    · simp only [Option.some.injEq] at h
      subst h
      have := (List.dropWhile_sublist isBlank (l := ‹List Char›)).length_le
      simp only [trimStart, List.length_cons]
      omega
    · simp at h
  · simp at h

theorem length_wordAndBlanks? {word : String} {t r : List Char}
    (h : wordAndBlanks? word t = some r) : r.length < t.length := by
  simp only [wordAndBlanks?, Option.bind_eq_some_iff, stripStart?_eq_some_iff] at h
  obtain ⟨s, rfl, hs⟩ := h
  have := length_blanks? hs
  simp only [List.length_append]
  omega

theorem length_javaModifier? {t r : List Char} (h : javaModifier? t = some r) :
    r.length < t.length := by
  simp only [javaModifier?, Option.orElse_eq_orElse, Option.orElse_eq_or, Option.or_eq_some_iff] at h
  rcases h with h | ⟨-, h | ⟨-, h⟩⟩
  · exact length_wordAndBlanks? h
  · exact length_wordAndBlanks? h
  · exact length_wordAndBlanks? h

/-- The places behind as many modifiers as there are, behind one fewer, and so on. -/
def afterModifiers (t : List Char) : List (List Char) :=
  match h : javaModifier? t with
  | some r =>
    have : r.length < t.length := length_javaModifier? h
    afterModifiers r ++ [t]
  | none => [t]
termination_by t.length

/-- A type, a name, a parameter list and a semicolon. -/
def javaTail? (t : List Char) : Option (Native × List Char) := do
  let (ret, t) ← run? isJavaTypeChar t
  let t ← blanks? t
  let ((name, params), t) ← nameAndParams? t
  let t ← stripStart? [';'] (trimStart t)
  return (⟨name, params, some ret⟩, t)

/-- `native` with modifiers, a type, a name and a parameter list. -/
def javaNative : Recogniser Native := fun before t => do
  let t ← keyword? "native" before t
  (afterModifiers t).findSome? javaTail?

end JniLink.Host
