import JniLink.Declaration
import JniLink.LinkError

/-!
# Manifests

A library may advertise its exports: for each symbol the method descriptor of what is behind it. A
declaration is checked against the first entry for the symbol it is bound to. A symbol without an
entry is accepted, and so is every declaration when there is no manifest.
-/

namespace JniLink

/-- One advertised export. -/
structure Manifest.Export where
  symbol : String
  descriptor : String
  /-- The dotted class that declares the method. -/
  owner : Option String
  method : Option String
  deriving DecidableEq, Repr

/-- The advertised exports of a library. -/
structure Manifest where
  library : String
  version : String
  exports : List Manifest.Export
  deriving DecidableEq, Repr

namespace Manifest

/-- The symbol of the function that answers the manifest of its library. -/
def symbol : String := "rustjni_abi_manifest"

/-- A manifest without exports. -/
def empty (library version : String) : Manifest :=
  ⟨library, version, []⟩

/-- The entry for a declaration, under the symbol that is looked up first. -/
def Export.ofDeclaration (d : Declaration) : Export :=
  ⟨d.mainSymbol, d.signature.descriptor, d.owner, d.owner.map fun _ => d.name⟩

/-- Advertises a declaration behind all other entries. -/
def add (m : Manifest) (d : Declaration) : Manifest :=
  { m with exports := m.exports ++ [Export.ofDeclaration d] }

/-- The first entry for a symbol. -/
def find? (m : Manifest) (symbol : String) : Option Export :=
  m.exports.find? (·.symbol = symbol)

/-- Checks a declaration that is bound to a symbol. -/
def check (m : Manifest) (d : Declaration) (symbol : String) : Except LinkError Unit :=
  match m.find? symbol with
  | none => .ok ()
  | some entry =>
    match Signature.ofDescriptor entry.descriptor with
    | .error e => .error (.manifest (.badExportOf symbol m.library e))
    | .ok exported =>
      if exported = d.signature then .ok ()
      else .error (.mismatch d.qualifiedName d.signature.descriptor entry.descriptor)

/-- Every descriptor can be read; the first one that cannot is the error. -/
def validate (m : Manifest) : Except ManifestError Unit :=
  m.exports.forM fun entry =>
    match Signature.ofDescriptor entry.descriptor with
    | .error e => .error (.badExport entry.symbol e)
    | .ok _ => .ok ()

end Manifest

end JniLink
