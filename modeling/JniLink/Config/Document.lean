import JniLink.Config.Basic
import JniLink.Json.Basic
import JniLink.Toml.Reader

/-!
# Configuration documents

A configuration as a TOML document, and as a JSON value with the same names. Whatever a document does
not say has its own value, and names that mean nothing are passed over. A record may also be given as
the array of its fields. A TOML document is read in its own order, which decides the error if
several values are wrong.
-/

namespace JniLink.Config

open JniLink.Android

/-! ## Writing -/

namespace Method

/-- A method as a table. -/
def table (m : Method) : Toml.Value :=
  .table [("name", .string m.name), ("descriptor", .string m.descriptor)]

end Method

/-- A list of texts. -/
def texts (items : List String) : Toml.Value :=
  .array (items.map Toml.Value.string)

/-- An entry that is there if it has a value. -/
def entry? (name : String) (value : Option String) : Toml.Table :=
  (value.map fun text => (name, Toml.Value.string text)).toList

/-- The library's table. -/
def LibrarySection.table (l : LibrarySection) : Toml.Table :=
  [("name", .string l.name), ("search_paths", texts (l.searchPaths.map Path.text))] ++
    entry? "startup_symbol" l.startupSymbol

/-- The host's table. -/
def HostSection.table (h : HostSection) : Toml.Table :=
  [("host", .string h.host), ("methods", .array (h.methods.map Method.table))]

/-- The table for Android; linkers stand in it if there are any. -/
def AndroidSection.table (a : AndroidSection) : Toml.Table :=
  [("targets", texts (a.targets.map Target.triple)), ("jni_libs", .string a.jniLibs.text)] ++
    entry? "ndk" (a.ndk.map Path.text) ++ entry? "prebuilt" a.prebuilt ++
    [("api_level", .integer a.apiLevel.toNat), ("ar", .string a.ar)] ++
    (if a.linkers.entries.isEmpty then []
      else [("linkers", .table (a.linkers.entries.map fun (name, linker) =>
        (name, .string linker)))])

/-- A configuration as a table. -/
def table (c : Config) : Toml.Table :=
  [("library", .table c.library.table), ("jni", .table c.jni.table),
    ("android", .table c.android.table), ("log", .table [("level", .string c.log.level)])]

/-- The document of a configuration. -/
def document (c : Config) : String :=
  Toml.Table.write c.table

/-! ## Reading TOML -/

/-- What reading a value answers. -/
abbrev Reading (α : Type) := Except ReadFault α

/-- A text. -/
def readText : Toml.Value → Reading String
  | .string text => .ok text
  | _ => .error .wrongKind

/-- A path. -/
def readPath (value : Toml.Value) : Reading Path :=
  (readText value).map Path.mk

/-- The name that a date has where a record or a map is due: it is read as a map with this name and
the text of the date. -/
def dateName : String := "$__toml_private_datetime"

/-- A list. -/
def readList {α : Type} (read : Toml.Value → Reading α) : Toml.Value → Reading (List α)
  | .array elements => elements.mapM read
  | _ => .error .wrongKind

/-- A record: starting from `initial`, every field is set as it comes. -/
def readRecord {α : Type} (names : List String) (set : α → String → Toml.Value → Reading α)
    (initial : α) : Toml.Value → Reading α
  | .table entries => entries.foldlM (fun record (name, value) => set record name value) initial
  | .array elements =>
    (names.zip elements).foldlM (fun record (name, value) => set record name value) initial
  | .datetime text => set initial dateName (.string text)
  | _ => .error .wrongKind

/-- A map of texts. -/
def readMap (value : Toml.Value) : Reading (NameMap String) :=
  let put (m : NameMap String) (name : String) (value : Toml.Value) : Reading (NameMap String) :=
    (readText value).map (m.insert name)
  match value with
  | .array _ => .error .wrongKind
  | value => readRecord [] put .empty value

/-- An Android target by either of its names. -/
def readTarget (value : Toml.Value) : Reading Target := do
  let name ← readText value
  match Target.ofName? name with
  | some target => return target
  | none => throw (.unknownTarget name)

/-- A number without a sign of 32 bits. -/
def readNumber : Toml.Value → Reading UInt32
  | .integer n => if 0 ≤ n ∧ n.toNat < UInt32.size then .ok (UInt32.ofNat n.toNat) else .error .wrongKind
  | _ => .error .wrongKind

/-- A method; both of its fields have to be there. -/
def readMethod (value : Toml.Value) : Reading Method := do
  let set (m : Option String × Option String) (name : String) (value : Toml.Value) :
      Reading (Option String × Option String) :=
    match name with
    | "name" => do return (some (← readText value), m.2)
    | "descriptor" => do return (m.1, some (← readText value))
    | _ => return m
  let missing (name : String) : ReadFault :=
    match value with
    | .array _ => .wrongKind
    | _ => .missingField name
  match ← readRecord ["name", "descriptor"] set (none, none) value with
  | (some name, some descriptor) => return ⟨name, descriptor⟩
  | (none, _) => throw (missing "name")
  | (some _, none) => throw (missing "descriptor")

/-- Sets a field of the library's section. -/
def LibrarySection.set (l : LibrarySection) (name : String) (value : Toml.Value) :
    Reading LibrarySection :=
  match name with
  | "name" => do return { l with name := ← readText value }
  | "search_paths" => do return { l with searchPaths := ← readList readPath value }
  | "startup_symbol" => do return { l with startupSymbol := some (← readText value) }
  | _ => return l

/-- Sets a field of the host's section. -/
def HostSection.set (h : HostSection) (name : String) (value : Toml.Value) :
    Reading HostSection :=
  match name with
  | "host" => do return { h with host := ← readText value }
  | "methods" => do return { h with methods := ← readList readMethod value }
  | _ => return h

/-- Sets a field of the section for Android. -/
def AndroidSection.set (a : AndroidSection) (name : String) (value : Toml.Value) :
    Reading AndroidSection :=
  match name with
  | "targets" => do return { a with targets := ← readList readTarget value }
  | "jni_libs" => do return { a with jniLibs := ← readPath value }
  | "ndk" => do return { a with ndk := some (← readPath value) }
  | "prebuilt" => do return { a with prebuilt := some (← readText value) }
  | "api_level" => do return { a with apiLevel := ← readNumber value }
  | "ar" => do return { a with ar := ← readText value }
  | "linkers" => do return { a with linkers := ← readMap value }
  | _ => return a

/-- Sets a field of the log's section. -/
def LogSection.set (l : LogSection) (name : String) (value : Toml.Value) : Reading LogSection :=
  match name with
  | "level" => do return { l with level := ← readText value }
  | _ => return l

/-- The fields of the library's section. -/
def libraryFields : List String := ["name", "search_paths", "startup_symbol"]

/-- The fields of the host's section. -/
def hostFields : List String := ["host", "methods"]

/-- The fields of the section for Android. -/
def androidFields : List String :=
  ["targets", "jni_libs", "ndk", "prebuilt", "api_level", "ar", "linkers"]

/-- The fields of the log's section. -/
def logFields : List String := ["level"]

/-- Sets a section. -/
def set (c : Config) (name : String) (value : Toml.Value) : Reading Config :=
  match name with
  | "library" => do
    return { c with library := ← readRecord libraryFields LibrarySection.set {} value }
  | "jni" => do return { c with jni := ← readRecord hostFields HostSection.set {} value }
  | "android" => do
    return { c with android := ← readRecord androidFields AndroidSection.set {} value }
  | "log" => do return { c with log := ← readRecord logFields LogSection.set {} value }
  | _ => return c

/-- The configuration that a table spells. -/
def ofTable (t : Toml.Table) : Reading Config :=
  readRecord [] set {} (.table t)

/-- The configuration that a document spells. -/
def ofDocument (text : String) : Reading Config :=
  match Toml.ofString? text with
  | some t => ofTable t
  | none => .error .syntaxError

/-! ## Reading JSON -/

open JniLink.Json in
/-- A path. -/
def pathOfJson? (value : Json) : Option Path :=
  (text? value).map Path.mk

/-- A number without a sign of 32 bits. -/
def numberOfJson? : Json → Option UInt32
  | .number text => do
    let n ← text.toNat?
    if n < UInt32.size then some (UInt32.ofNat n) else none
  | _ => none

/-- An Android target by either of its names. -/
def targetOfJson? (value : Json) : Option Target :=
  value.text?.bind Target.ofName?

/-- A map of texts. -/
def mapOfJson? : Json → Option (NameMap String)
  | .object members => do
    let entries ← members.mapM fun (name, value) => do return (← name, ← value.text?)
    return .ofList entries
  | _ => none

open JniLink.Json in
/-- A method; both of its fields have to be there. -/
def methodOfJson? (value : Json) : Option Method := do
  match ← fields? ["name", "descriptor"] value with
  | [name, descriptor] => return ⟨← required? text? name, ← required? text? descriptor⟩
  | _ => none

open JniLink.Json in
/-- The library's section. -/
def LibrarySection.ofJson? (value : Json) : Option LibrarySection := do
  let initial : LibrarySection := {}
  match ← fields? libraryFields value with
  | [name, searchPaths, startupSymbol] =>
    return {
      name := ← optional? initial.name text? name
      searchPaths := ← optional? [] (list? pathOfJson?) searchPaths
      startupSymbol := ← optional? none (nullable? text?) startupSymbol }
  | _ => none

open JniLink.Json in
/-- The host's section. -/
def HostSection.ofJson? (value : Json) : Option HostSection := do
  let initial : HostSection := {}
  match ← fields? hostFields value with
  | [host, methods] =>
    return {
      host := ← optional? initial.host text? host
      methods := ← optional? initial.methods (list? methodOfJson?) methods }
  | _ => none

open JniLink.Json in
/-- The section for Android. -/
def AndroidSection.ofJson? (value : Json) : Option AndroidSection := do
  let initial : AndroidSection := {}
  match ← fields? androidFields value with
  | [targets, jniLibs, ndk, prebuilt, apiLevel, ar, linkers] =>
    return {
      targets := ← optional? initial.targets (list? targetOfJson?) targets
      jniLibs := ← optional? initial.jniLibs pathOfJson? jniLibs
      ndk := ← optional? none (nullable? pathOfJson?) ndk
      prebuilt := ← optional? none (nullable? text?) prebuilt
      apiLevel := ← optional? initial.apiLevel numberOfJson? apiLevel
      ar := ← optional? initial.ar text? ar
      linkers := ← optional? .empty mapOfJson? linkers }
  | _ => none

open JniLink.Json in
/-- The log's section. -/
def LogSection.ofJson? (value : Json) : Option LogSection := do
  let initial : LogSection := {}
  match ← fields? logFields value with
  | [level] => return { level := ← optional? initial.level text? level }
  | _ => none

open JniLink.Json in
/-- The configuration that a JSON value spells. -/
def ofJson? (value : Json) : Option Config := do
  match ← fields? ["library", "jni", "android", "log"] value with
  | [library, jni, android, log] =>
    return {
      library := ← optional? {} LibrarySection.ofJson? library
      jni := ← optional? {} HostSection.ofJson? jni
      android := ← optional? {} AndroidSection.ofJson? android
      log := ← optional? {} LogSection.ofJson? log }
  | _ => none

end JniLink.Config
