import JniLink.Binding.Basic
import JniLink.Command.Project

/-!
# Commands that link

`check` binds every configured method and reports on each of them; `run` does the same without
a word, stops at the first failure, and makes the first call; `call` calls one function.
-/

namespace JniLink.Project

/-- The line about a library's manifest. -/
def manifestLine (library : Library) : String :=
  match library.manifest with
  | some m => s!"ABI manifest: {m.library} {m.version} ({m.exports.length} exports)\n"
  | none => "ABI manifest: none, descriptors cannot be verified\n"

/-- The line about a declaration. -/
def bindingLine : Declaration × Except LinkError String → String
  | (d, .ok symbol) => s!"  ok    {d.text} -> {symbol}\n"
  | (d, .error e) => s!"  FAIL  {d.text}: {e.message}\n"

/-- Reports how the configured methods are bound in a library. -/
def reportBindings (p : Project) (library : Library) : Finish :=
  match p.config.declarations with
  | .error e => .failed p.system (.config e)
  | .ok decls =>
    let results := library.checkAll decls
    let failures := (results.filter fun r => !r.2.isOk).length
    let lines := String.join (results.map bindingLine)
    if failures > 0 then
      .after lines (.failed p.system (.unbound failures decls.length))
    else .done p.system (lines ++ s!"{decls.length} declarations bound\n")

/-- Binds every configured method in the given library or the configured one. -/
def check (p : Project) (library : Option String) : Finish :=
  match p.openLibrary (library.getD p.config.library.name) with
  | .error e => .failed p.system (.link e)
  | .ok (library, p) =>
    .after (s!"Loaded {library.name} ({library.path.text})\n" ++ manifestLine library)
      (p.reportBindings library)

/-- The declaration of a function that answers a text. -/
def textFunction (symbol : String) : Declaration :=
  .ofExport symbol ⟨[], .string⟩

/-- Calls a function that answers a text. -/
def callText (p : Project) (library : Library) (symbol : String) : Except LinkError String :=
  ((Binding.ofDeclaration library.name (textFunction symbol)).call p.registry).1

/-- Calls a function of a library and prints what it answers. -/
def call (p : Project) (library symbol : String) : Finish :=
  match p.openLibrary library with
  | .error e => .failed p.system (.link e)
  | .ok (library, p) =>
    match p.callText library symbol with
    | .error e => .failed p.system (.link e)
    | .ok text => .done p.system (text ++ "\n")

/-- The first declaration that is not bound, and why. -/
def firstUnbound? : List (Declaration × Except LinkError String) → Option (Declaration × LinkError)
  | [] => none
  | (d, .error e) :: _ => some (d, e)
  | (_, .ok _) :: rest => firstUnbound? rest

/-- The first call, if one is configured. -/
def startup (p : Project) (library : Library) (bound : Nat) : Finish :=
  match p.config.library.startupSymbol with
  | none => .done p.system s!"Bound {bound} natives\n"
  | some symbol =>
    match p.callText library symbol with
    | .error e => .failedIn p.system .startup (.link e)
    | .ok text => .done p.system (text ++ "\n")

/-- Loads the configured library, binds all configured methods and makes the first call. -/
def run (p : Project) : Finish :=
  match p.loadLibrary (.bare p.config.library.name) with
  | .error e => .failedIn p.system .loadLibrary (.link e)
  | .ok (library, p) =>
    match p.config.declarations with
    | .error e => .failed p.system (.config e)
    | .ok decls =>
      match firstUnbound? (library.checkAll decls) with
      | some (d, e) => .failedIn p.system (.bind d) (.link e)
      | none => p.startup library decls.length

end JniLink.Project
