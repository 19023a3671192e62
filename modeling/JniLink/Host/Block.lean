import JniLink.Declaration
import JniLink.JvmType.Spelling
import JniLink.Text.Block

/-!
# Host declarations

The native declarations that a host class needs, together with the initializer that loads the
library, as Kotlin or Java text; and that text as a marked block of lines, indented to stand in the
body of a class.
-/

namespace JniLink.Host

open JniLink.Text

/-- The name of a parameter by its position. -/
def paramName (index : Nat) : List Char :=
  "arg".toList ++ (toString index).toList

/-- A parameter in a language. -/
def spellParam (language : Language) (param : JvmType × Nat) : List Char :=
  match language with
  | .kotlin => paramName param.2 ++ ": ".toList ++ param.1.kotlinName.toList
  | .java => param.1.javaName.toList ++ " ".toList ++ paramName param.2

/-- A parameter list. -/
def spellParams (language : Language) (params : List JvmType) : List Char :=
  joinWith ", ".toList (params.zipIdx.map (spellParam language))

/-- The line that declares a native function. -/
def declarationLine (language : Language) (d : Declaration) : List Char :=
  match language with
  | .kotlin =>
    "private external fun ".toList ++ d.name.toList ++
      '(' :: spellParams .kotlin d.signature.params ++ ')' ::
      (if d.signature.ret = .void then []
        else ": ".toList ++ d.signature.ret.kotlinName.toList)
  | .java =>
    "private static native ".toList ++ d.signature.ret.javaName.toList ++
      ' ' :: d.name.toList ++ '(' :: spellParams .java d.signature.params ++ ");".toList

/-- The initializer that loads a library. -/
def loadLines (language : Language) (library : String) : List Char :=
  match language with
  | .kotlin =>
    "companion object \x7b\n    init \x7b System.loadLibrary(\"".toList ++ library.toList ++
      "\") \x7d\n\x7d\n".toList
  | .java =>
    "static \x7b System.loadLibrary(\"".toList ++ library.toList ++ "\"); \x7d\n".toList

/-- The declarations of a library, ready to stand in the body of a class: a line for each, an empty
line, the initializer. -/
def declarationsText (library : String) (decls : List Declaration) (language : Language) :
    List Char :=
  decls.flatMap (declarationLine language · ++ ['\n']) ++ '\n' :: loadLines language library

/-- The marker in front of a generated block. -/
def blockOpening : List Char := "//<RustJNI>".toList

/-- The marker behind a generated block. -/
def blockClosing : List Char := "//</RustJNI>".toList

/-- A line of the block; an empty one is not indented. -/
def indentLine (indent line : List Char) : List Char :=
  if line = [] then ['\n'] else indent ++ line ++ ['\n']

/-- The declarations between the markers, every line indented. -/
def blockText (library : String) (decls : List Declaration) (language : Language)
    (indent : List Char) : List Char :=
  indent ++ blockOpening ++ '\n' ::
    indent ++ "// auto-generated code\n".toList ++
    (lines (declarationsText library decls language)).flatMap (indentLine indent) ++
    indent ++ blockClosing ++ ['\n']

/-- The declarations as text. -/
def declarations (library : String) (decls : List Declaration) (language : Language) : String :=
  String.ofList (declarationsText library decls language)

/-- The marked block as text. -/
def block (library : String) (decls : List Declaration) (language : Language) (indent : String) :
    String :=
  String.ofList (blockText library decls language indent.toList)

end JniLink.Host
