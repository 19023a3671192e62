import JniLink.Declaration
import JniLink.Text.Ascending

/-!
# Stubs

The native side of declarations as source text: an exported function for each of them, with the
parameter and result types of the JNI headers, that logs the call and answers a default value. A file
of stubs imports exactly the JNI types that its functions use, in ascending order.
-/

namespace JniLink

open JniLink.Text

namespace Primitive

/-- The JNI name of the type. -/
def jniName : Primitive → String
  | boolean => "jboolean" | byte => "jbyte" | char => "jchar" | short => "jshort"
  | int => "jint" | long => "jlong" | float => "jfloat" | double => "jdouble"

end Primitive

namespace JvmType

/-- The type of a value on the native side. -/
def jniName : JvmType → String
  | .void => "()"
  | .primitive p => p.jniName
  | .object name =>
    if name = stringName then "jstring"
    else if name = "java/lang/Class" then "jclass"
    else "jobject"
  | .array (.primitive p) => p.jniName ++ "Array"
  | .array _ => "jobjectArray"

end JvmType

namespace Stub

/-- The types that a declaration mentions, its result last. -/
def mentioned (d : Declaration) : List JvmType :=
  d.signature.params ++ [d.signature.ret]

/-- The JNI types that the stubs of some declarations import. -/
def imports (decls : List Declaration) : List String :=
  ascending (((decls.flatMap mentioned).filter (· ≠ .void)).map JvmType.jniName)

/-- The parameters of a stub: the environment and the receiver for a method, and the declared ones
by their position. -/
def params (d : Declaration) : List String :=
  let declared := d.signature.params.zipIdx.map fun (t, i) => s!"_arg{i}: {t.jniName}"
  match d.linkage with
  | .jni =>
    let env := if d.signature.ret.isReference then "env" else "_env"
    s!"{env}: JNIEnv<'local>" :: "_this: JObject<'local>" :: declared
  | .c => declared

/-- What the body of a stub answers. -/
def defaultValue (d : Declaration) : Option String :=
  match d.signature.ret with
  | .void => none
  | .primitive .boolean => some "jni::sys::JNI_FALSE"
  | .primitive .float | .primitive .double => some "0.0"
  | .primitive _ => some "0"
  | .object name =>
    if name = JvmType.stringName ∧ d.linkage = .jni then
      some ("env.new_string(\"Rust Method: " ++ d.name ++
        "\").map(|s| s.into_raw()).unwrap_or(std::ptr::null_mut())")
    else some "std::ptr::null_mut()"
  | .array _ => some "std::ptr::null_mut()"

/-- The name of the function that a stub defines. -/
def functionName (d : Declaration) : String :=
  d.mainSymbol

/-- The stub of one declaration. -/
def text (d : Declaration) : String :=
  let (abi, generics) := match d.linkage with
    | .jni => ("system", "<'local>")
    | .c => ("C", "")
  let result := if d.signature.ret = .void then "" else " -> " ++ d.signature.ret.jniName
  "/// " ++ d.text ++ "\n" ++
    "#[no_mangle]\n" ++
    "pub extern \"" ++ abi ++ "\" fn " ++ functionName d ++ generics ++ "(\n" ++
    String.join ((params d).map fun p => "    " ++ p ++ ",\n") ++
    ")" ++ result ++ " \x7b\n" ++
    "    log::debug!(\"" ++ d.qualifiedName ++ " called\");\n" ++
    (defaultValue d).elim "" (fun body => "    " ++ body ++ "\n") ++
    "\x7d\n"

/-- The line that imports JNI types, if there are any. -/
def importLine (names : List String) : String :=
  if names.isEmpty then ""
  else "use jni::sys::\x7b" ++ ", ".intercalate names ++ "\x7d;\n"

/-- The stubs of some declarations as one file, in the order of the declarations. -/
def file (decls : List Declaration) : String :=
  "use jni::objects::JObject;\nuse jni::JNIEnv;\n" ++ importLine (imports decls) ++
    String.join (decls.map fun d => "\n" ++ text d)

end Stub

end JniLink
