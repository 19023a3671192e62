import JniLink.Symbol.Escape
import JniLink.Text.Search

/-!
# Declarations of native functions

A declaration is a contract whose body lives in a library: a name, a signature, and the rule by
which the name becomes an exported symbol.
-/

namespace JniLink

/-- How the name of a declaration becomes an exported symbol. -/
inductive Linkage where
  /-- By class and method, escaped. -/
  | jni
  /-- The name is the symbol. -/
  | c
  deriving DecidableEq, Repr

/-- A declared native function. -/
structure Declaration where
  /-- The class that declares the method, in dotted form. -/
  owner : Option String
  name : String
  signature : Signature
  linkage : Linkage
  deriving DecidableEq, Repr

namespace Declaration

/-- A native method of a class, which may be given in slashed or dotted form. -/
def ofMethod (owner name : String) (signature : Signature) : Declaration :=
  ⟨some (Text.dotted owner), name, signature, .jni⟩

/-- A plain exported function. -/
def ofExport (name : String) (signature : Signature) : Declaration :=
  ⟨none, name, signature, .c⟩

/-- The symbols that may stand for the declaration, in the order in which they are looked up: for a
method the short one and then the one with the parameters. -/
def symbols (d : Declaration) : List String :=
  match d.linkage, d.owner with
  | .jni, some owner => [Symbol.short owner d.name, Symbol.long owner d.name d.signature]
  | _, _ => [d.name]

/-- The symbol that is looked up first. -/
def mainSymbol (d : Declaration) : String :=
  match d.linkage, d.owner with
  | .jni, some owner => Symbol.short owner d.name
  | _, _ => d.name

theorem symbols_head? (d : Declaration) : d.symbols.head? = some d.mainSymbol := by
  unfold symbols mainSymbol
  split <;> rfl

/-- The name behind its class, if there is one. -/
def qualifiedName (d : Declaration) : String :=
  match d.owner with
  | some owner => s!"{owner}.{d.name}"
  | none => d.name

/-- The qualified name with the method descriptor, as messages show it. -/
def text (d : Declaration) : String :=
  d.qualifiedName ++ d.signature.descriptor

end Declaration

end JniLink
