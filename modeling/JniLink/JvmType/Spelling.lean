import JniLink.JvmType.Basic
import JniLink.Text.Search

/-!
# Types in host sources

How Kotlin and Java write a type, and which of their type names stand for one. A name with a dot in
it is taken for a class; a name without is known only if it is built in. Neither reading undoes the
other language's writing, and a class without a package is written as a name that is not read back.
-/

namespace JniLink

open JniLink.Text

/-- The languages in which a host class is written. -/
inductive Language where
  | kotlin | java
  deriving DecidableEq, Repr

namespace Primitive

/-- The name of the type in Kotlin. -/
def kotlinName : Primitive → String
  | boolean => "Boolean" | byte => "Byte" | char => "Char" | short => "Short"
  | int => "Int" | long => "Long" | float => "Float" | double => "Double"

/-- The name of the type in Java. -/
def javaName : Primitive → String
  | boolean => "boolean" | byte => "byte" | char => "char" | short => "short"
  | int => "int" | long => "long" | float => "float" | double => "double"

/-- All primitive types. -/
def all : List Primitive := [boolean, byte, char, short, int, long, float, double]

/-- The primitive type with a Kotlin name. -/
def ofKotlin? (name : String) : Option Primitive :=
  all.find? (·.kotlinName == name)

/-- The primitive type whose arrays have a Kotlin name of their own. -/
def ofKotlinArray? (name : String) : Option Primitive :=
  all.find? (·.kotlinName ++ "Array" == name)

/-- The primitive type with a Java name. -/
def ofJava? (name : String) : Option Primitive :=
  all.find? (·.javaName == name)

/-- The primitive type whose box is the class of this name in `java.lang`. -/
def ofBox? (simpleName : String) : Option Primitive :=
  all.find? (·.boxName == "java/lang/" ++ simpleName)

end Primitive

namespace JvmType

/-- The type as Kotlin writes it. -/
def kotlinName : JvmType → String
  | .void => "Unit"
  | .primitive p => p.kotlinName
  | .object name =>
    if name = stringName then "String"
    else if name = objectName then "Any"
    else dotted name
  | .array (.primitive p) => p.kotlinName ++ "Array"
  | .array element => "Array<" ++ element.kotlinName ++ ">"

/-- The name of a class inside `java.lang` itself. -/
def javaLangName? (name : String) : Option String :=
  match stripStart? "java/lang/".toList name.toList with
  | some simple => if '/' ∈ simple then none else some (String.ofList simple)
  | none => none

/-- The type as Java writes it. -/
def javaName : JvmType → String
  | .void => "void"
  | .primitive p => p.javaName
  | .object name => (javaLangName? name).getD (dotted name)
  | .array element => element.javaName ++ "[]"

/-- A name that is no built-in one stands for a class if it has a dot. -/
def ofQualified? (name : List Char) : Option JvmType :=
  if '.' ∈ name then some (ofClassName (String.ofList name)) else none

/-- The type that a Kotlin name without type arguments stands for. -/
def ofKotlinName? (name : List Char) : Option JvmType :=
  let text := String.ofList name
  if text = "Unit" then some .void
  else if text = "String" then some string
  else if text = "Any" then some any
  else match Primitive.ofKotlin? text, Primitive.ofKotlinArray? text with
    | some p, _ => some (.primitive p)
    | none, some p => some (.array (.primitive p))
    | none, none => ofQualified? name

/-- The type that a Java name without brackets stands for. -/
def ofJavaName? (name : List Char) : Option JvmType :=
  let text := String.ofList name
  if text = "void" then some .void
  else if text = "String" then some string
  else if text = "Object" then some any
  else match Primitive.ofJava? text, Primitive.ofBox? text with
    | some p, _ => some (.primitive p)
    | none, some p => some (.object p.boxName)
    | none, none => ofQualified? name

/-- The text between `opening` and `closing`, if it has both. -/
def between? (opening closing t : List Char) : Option (List Char) :=
  (stripStart? opening t).bind (stripEnd? closing)

theorem length_stripEnd? {ending t r : List Char} (h : stripEnd? ending t = some r) :
    t.length = r.length + ending.length := by
  simp [stripEnd?_eq_some_iff.1 h]

theorem length_between? {opening closing t r : List Char} (h : between? opening closing t = some r) :
    t.length = r.length + opening.length + closing.length := by
  simp only [between?, Option.bind_eq_some_iff, stripStart?_eq_some_iff, stripEnd?_eq_some_iff] at h
  obtain ⟨s, rfl, rfl⟩ := h
  simp only [List.length_append]
  omega

theorem length_trim_le (t : List Char) : (trim t).length ≤ t.length := by
  have h1 : (trimStart t).length ≤ t.length := (List.dropWhile_sublist _).length_le
  have h2 : (trimEnd (trimStart t)).length ≤ (trimStart t).length := by
    unfold trimEnd
    have := (List.dropWhile_sublist isBlank (l := (trimStart t).reverse)).length_le
    simpa using this
  unfold trim
  omega

/-- The type that a Kotlin spelling stands for: a question mark makes the box of a primitive type,
`Array<…>` holds boxes. -/
def ofKotlin? (t : List Char) : Option JvmType :=
  match hn : stripEnd? ['?'] (trim t) with
  | some inner =>
    have : inner.length < t.length := by
      have := length_stripEnd? hn
      have := length_trim_le t
      simp only [List.length_singleton] at *
      omega
    (ofKotlin? inner).map boxed
  | none =>
    match ha : between? "Array<".toList ['>'] (trim t) with
    | some inner =>
      have : inner.length < t.length := by
        have := length_between? ha
        have := length_trim_le t
        simp only [List.length_singleton] at *
        omega
      (ofKotlin? inner).map fun element => .array element.boxed
    | none => ofKotlinName? (trim t)
termination_by t.length

/-- The array brackets of Java, or the dots of a parameter that takes any number of values. -/
def stripJavaArray? (t : List Char) : Option (List Char) :=
  match stripEnd? ['[', ']'] t with
  | some inner => some inner
  | none => stripEnd? ['.', '.', '.'] t

/-- The type that a Java spelling stands for. -/
def ofJava? (t : List Char) : Option JvmType :=
  match ha : stripJavaArray? (trim t) with
  | some inner =>
    have : inner.length < t.length := by
      have := length_trim_le t
      simp only [stripJavaArray?] at ha
      split at ha
      · next s hs =>
        have := length_stripEnd? hs
        simp_all
        omega
      · have := length_stripEnd? ha
        simp_all
        omega
    (ofJava? inner).map .array
  | none => ofJavaName? (trim t)
termination_by t.length

/-- The type that a spelling of a language stands for. -/
def ofSpelling? : Language → List Char → Option JvmType
  | .kotlin => ofKotlin?
  | .java => ofJava?

end JvmType

end JniLink
