import JniLink.Registry.Basic

/-!
# Bindings

The native side of a declaration: the library it lives in and, once it was resolved, the function
behind it. The function is kept together with the library it came from, and it is answered again as
long as the registry at hand holds that very library; another registry with a library of its own
gets a fresh look-up, which is not kept.
-/

namespace JniLink

open JniLink.Text

/-- A declaration to be bound in a library. -/
structure Binding where
  library : String
  declaration : Declaration
  /-- The function of the first look-up that succeeded, and its library. -/
  resolved : Option (Library × Pointer)
  deriving DecidableEq, Repr

namespace Binding

/-- A binding that is not resolved. -/
def ofDeclaration (library : String) (d : Declaration) : Binding :=
  ⟨library, d, none⟩

/-- Whether a look-up has succeeded. -/
def isResolved (b : Binding) : Bool :=
  b.resolved.isSome

/-- The function that the declaration is bound to in a registry, in which the library has to be
loaded. -/
def getIn (b : Binding) (r : Registry) : Except LinkError Pointer × Binding :=
  match r.require b.library with
  | .error e => (.error e, b)
  | .ok library =>
    match b.resolved with
    | some (cached, p) => (if cached.id = library.id then .ok p else library.bind b.declaration, b)
    | none =>
      match library.bind b.declaration with
      | .error e => (.error e, b)
      | .ok p => (.ok p, { b with resolved := some (library, p) })

/-- The text that a function answers. -/
def readText (b : Binding) (p : Pointer) : Except LinkError String :=
  (readAnswer p.answer).mapError (.badReturn b.declaration.qualifiedName)

/-- Calls the function that the declaration is bound to in a registry. -/
def call (b : Binding) (r : Registry) : Except LinkError String × Binding :=
  match b.getIn r with
  | (.error e, b) => (.error e, b)
  | (.ok p, b) => (b.readText p, b)

/-- A binding as reports show it. -/
def report (b : Binding) : String :=
  let resolved := if b.isResolved then "true" else "false"
  "NativeFn \x7b library: " ++ quote b.library ++ ", decl: " ++ quote b.declaration.text ++
    ", resolved: " ++ resolved ++ " \x7d"

end Binding

end JniLink
