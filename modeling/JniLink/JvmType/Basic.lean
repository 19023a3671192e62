/-!
# JVM types

The types of the values that a native method takes and answers: nothing, the eight primitive types,
a class named in slashed binary form, and arrays. Nothing here keeps an ill-formed type from being
written down (an array of `void`, a class without a name); `WellFormed` says which ones a descriptor
can spell.
-/

namespace JniLink

/-- The primitive types. -/
inductive Primitive where
  | boolean | byte | char | short | int | long | float | double
  deriving DecidableEq, Repr, Inhabited

/-- A type that crosses the boundary between host and native code. -/
inductive JvmType where
  /-- No value; it stands for the result of a method only. -/
  | void
  | primitive (p : Primitive)
  /-- A class by its binary name with `/` between packages. -/
  | object (name : String)
  | array (element : JvmType)
  deriving DecidableEq, Repr, Inhabited

namespace Primitive

/-- The letter of the type in a descriptor. -/
def tag : Primitive → Char
  | boolean => 'Z' | byte => 'B' | char => 'C' | short => 'S'
  | int => 'I' | long => 'J' | float => 'F' | double => 'D'

/-- The primitive type with a tag. -/
def ofTag? : Char → Option Primitive
  | 'Z' => some boolean | 'B' => some byte | 'C' => some char | 'S' => some short
  | 'I' => some int | 'J' => some long | 'F' => some float | 'D' => some double
  | _ => none

@[simp] theorem ofTag?_tag (p : Primitive) : ofTag? p.tag = some p := by
  cases p <;> rfl

/-- The class that holds a value of the type as an object. -/
def boxName : Primitive → String
  | boolean => "java/lang/Boolean" | byte => "java/lang/Byte"
  | char => "java/lang/Character" | short => "java/lang/Short"
  | int => "java/lang/Integer" | long => "java/lang/Long"
  | float => "java/lang/Float" | double => "java/lang/Double"

end Primitive

namespace JvmType

/-- The class of texts. -/
def stringName : String := "java/lang/String"

/-- The class that every class extends. -/
def objectName : String := "java/lang/Object"

/-- The type of texts. -/
def string : JvmType := .object stringName

/-- The type of any object. -/
def any : JvmType := .object objectName

/-- A class from its name in dotted or slashed form. -/
def ofClassName (name : String) : JvmType :=
  .object (String.ofList (name.toList.map fun c => if c = '.' then '/' else c))

/-- One of the primitive types. -/
def isPrimitive : JvmType → Bool
  | .primitive _ => true
  | _ => false

/-- A class or an array. -/
def isReference : JvmType → Bool
  | .object _ | .array _ => true
  | _ => false

/-- The type of texts. -/
def isString (t : JvmType) : Bool :=
  t == string

/-- The class that boxes a primitive type; any other type is unchanged. -/
def boxed : JvmType → JvmType
  | .primitive p => .object p.boxName
  | t => t

/-- A type under `levels` array levels. -/
def arrayOf (levels : Nat) (t : JvmType) : JvmType :=
  match levels with
  | 0 => t
  | n + 1 => .array (arrayOf n t)

/-- The count of array levels of a type and the type under them. -/
def levels : JvmType → Nat × JvmType
  | .array element => (element.levels.1 + 1, element.levels.2)
  | t => (0, t)

theorem arrayOf_levels (t : JvmType) : arrayOf t.levels.1 t.levels.2 = t := by
  induction t with
  | array element ih => simpa [levels, arrayOf] using ih
  | _ => rfl

/-- A class name that a descriptor can hold: not empty and without the `;` that ends it. -/
def IsClassName (name : String) : Prop :=
  name ≠ "" ∧ ';' ∉ name.toList

/-- A type that a descriptor can spell: no array of `void`, and class names that can be read back.
`void` itself is well-formed. -/
def WellFormed : JvmType → Prop
  | .void | .primitive _ => True
  | .object name => IsClassName name
  | .array element => element ≠ .void ∧ element.WellFormed

instance decidableIsClassName (name : String) : Decidable (IsClassName name) :=
  inferInstanceAs (Decidable (name ≠ "" ∧ ';' ∉ name.toList))

instance decidableWellFormed : (t : JvmType) → Decidable t.WellFormed
  | .void | .primitive _ => .isTrue trivial
  | .object name => decidableIsClassName name
  | .array element =>
    have := decidableWellFormed element
    inferInstanceAs (Decidable (element ≠ .void ∧ element.WellFormed))

end JvmType

end JniLink
