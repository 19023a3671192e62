import JniLink.Declaration
import JniLink.File.Path
import JniLink.Host.Comment
import JniLink.Host.Pattern
import JniLink.JvmType.Spelling

/-!
# Host sources

What a Kotlin or Java file says about its native side: the class, the libraries that it loads, and
the native methods with their types. All methods are taken to be declared by the first class of the
file, and comments are dropped before anything is read. A type that has no known JVM form makes the
whole file unreadable, so that no method is ever left out without a word.
-/

namespace JniLink

open JniLink.Text JniLink.Host

/-- The language of a file, by the extension of its name. -/
def Language.ofPath? (p : Path) : Option Language :=
  match p.extension? with
  | some "kt" => some .kotlin
  | some "java" => some .java
  | _ => none

/-- Why a host source cannot be read. -/
inductive HostError where
  | missingClass
  | unsupportedType (method type : String)
  | malformedParam (method param : String)
  deriving DecidableEq, Repr

/-- The wording of an error. -/
def HostError.message : HostError → String
  | .missingClass => "no class declaration found"
  | .unsupportedType method type => s!"method '{method}': unsupported type '{type}'"
  | .malformedParam method param => s!"method '{method}': malformed parameter '{param}'"

/-- What a host class declares about its native side. -/
structure HostSource where
  language : Language
  /-- The dotted name of the first class in the file. -/
  owner : String
  /-- The libraries that are loaded, in order. -/
  libraries : List String
  methods : List Declaration
  deriving DecidableEq, Repr

namespace HostSource

/-- The type that a spelling stands for, or the error that names the method it was found in. -/
def resolve (language : Language) (method type : List Char) : Except HostError JvmType :=
  match JvmType.ofSpelling? language type with
  | some t => .ok t
  | none => .error (.unsupportedType (String.ofList method) (String.ofList type))

/-- A Kotlin parameter is a name, a colon and a type, and may have a default value behind it;
`vararg` before the name makes an array of the type. -/
def kotlinParam (method param : List Char) : Except HostError JvmType :=
  match upTo? ':' param with
  | none => .error (.malformedParam (String.ofList method) (String.ofList param))
  | some (name, rest) => do
    let type ← resolve .kotlin method (trim (rest.takeWhile (· != '=')))
    return if "vararg".toList ∈ words name then .array type else type

/-- Puts a space behind every three dots. -/
def spaceDots : List Char → List Char
  | '.' :: '.' :: '.' :: r => '.' :: '.' :: '.' :: ' ' :: spaceDots r
  | c :: r => c :: spaceDots r
  | [] => []

/-- A Java parameter is a type and a name; three dots between them, wherever they are attached, make
an array of the type. -/
def javaParam (method param : List Char) : Except HostError JvmType :=
  match (words (spaceDots param)).filter (· ≠ "final".toList) with
  | [type, _] => resolve .java method type
  | [type, ['.', '.', '.'], _] => resolve .java method (type ++ ['.', '.', '.'])
  | _ => .error (.malformedParam (String.ofList method) (String.ofList param))

/-- One parameter of a method. -/
def param : Language → List Char → List Char → Except HostError JvmType
  | .kotlin => kotlinParam
  | .java => javaParam

/-- The parameters of a method. They stand between commas, and blank ones are passed over; the first
one that cannot be read is the error. -/
def params (language : Language) (method list : List Char) : Except HostError (List JvmType) :=
  ((splitWhere (· == ',') list).map trim).filter (· ≠ []) |>.mapM (param language method)

/-- The signature of a native function. Kotlin's parameters are read before its result, and Java's
result before its parameters, which decides the error if both are wrong. -/
def signature (language : Language) (n : Native) : Except HostError Signature := do
  let ret : Except HostError JvmType :=
    match n.ret with
    | some type => resolve language n.name type
    | none => .ok .void
  match language with
  | .kotlin =>
    let params ← params language n.name n.params
    return ⟨params, ← ret⟩
  | .java =>
    let ret ← ret
    return ⟨← params language n.name n.params, ret⟩

/-- The recogniser of a language's native functions. -/
def native : Language → Recogniser Native
  | .kotlin => kotlinNative
  | .java => javaNative

/-- Reads a host source whose comments are dropped already. -/
def ofCode (language : Language) (code : List Char) : Except HostError HostSource := do
  let (simpleName, _) ← (firstMatch? classHeader none code).elim (.error .missingClass) .ok
  let owner := match firstMatch? packageLine none code with
    | some (package, _) => package ++ '.' :: simpleName
    | none => simpleName
  let methods ← (allMatches (native language) none 0 code).mapM fun n => do
    return Declaration.ofMethod (String.ofList owner) (String.ofList n.name)
      (← signature language n)
  return {
    language
    owner := String.ofList owner
    libraries := (allMatches libraryLoad none 0 code).map String.ofList
    methods }

/-- Reads a host source. -/
def ofText (language : Language) (text : String) : Except HostError HostSource :=
  ofCode language (stripComments text.toList)

end HostSource

end JniLink
