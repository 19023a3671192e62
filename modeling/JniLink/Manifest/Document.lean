import JniLink.Json.Reader
import JniLink.Json.Writer
import JniLink.Manifest.Basic

/-!
# Manifest documents

A manifest as a JSON document. The version and the exports may be missing, and class and method of
an export may be missing or `null`; other members are passed over.
-/

namespace JniLink.Manifest

open JniLink.Json

/-- An entry as a JSON value; class and method are left out if there are none. -/
def Export.toJson (e : Export) : Json :=
  .ofMembers <|
    [("symbol", .ofText e.symbol), ("descriptor", .ofText e.descriptor)] ++
      (e.owner.map fun owner => ("class", .ofText owner)).toList ++
      (e.method.map fun method => ("method", .ofText method)).toList

/-- A manifest as a JSON value. -/
def toJson (m : Manifest) : Json :=
  .ofMembers [("library", .ofText m.library), ("version", .ofText m.version),
    ("exports", .array (m.exports.map Export.toJson))]

/-- The entry that a JSON value spells. -/
def Export.ofJson? (value : Json) : Option Export := do
  match ← fields? ["symbol", "descriptor", "class", "method"] value with
  | [symbol, descriptor, owner, method] =>
    return ⟨← required? text? symbol, ← required? text? descriptor,
      ← optional? none (nullable? text?) owner, ← optional? none (nullable? text?) method⟩
  | _ => none

/-- The manifest that a JSON value spells. -/
def ofJson? (value : Json) : Option Manifest := do
  match ← fields? ["library", "version", "exports"] value with
  | [library, version, exports] =>
    return ⟨← required? text? library, ← optional? "" text? version,
      ← optional? [] (list? Export.ofJson?) exports⟩
  | _ => none

/-- Reads a document. -/
def ofText (text : String) : Except ManifestError Manifest :=
  match (Json.ofString? text).bind ofJson? with
  | some m => .ok m
  | none => .error .malformed

/-- The document of a manifest. -/
def document (m : Manifest) : String :=
  Json.write m.toJson

end JniLink.Manifest
