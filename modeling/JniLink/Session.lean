import JniLink.Binding.Basic

/-!
# Sessions

Registries in use on one system, one operation after the other: libraries are loaded, directories are
added, and files change. In a session of a binding the binding is resolved and called in these
registries too.
-/

namespace JniLink

/-- Registries and the system that they load from. -/
structure Session where
  registries : List Registry
  system : System

namespace Session

/-- What is done in a session; registries are named by their place in it. -/
inductive Action where
  | load (registry : Nat) (request : Request)
  | addSearchPath (registry : Nat) (dir : Path)
  | change (files : FileTree)

/-- A session whose registries have loaded nothing. -/
def start (loaders : List Loader) (s : System) : Session :=
  ⟨loaders.map Registry.ofLoader, s⟩

/-- The session after an action. An action on a registry that there is not does nothing. -/
def act (x : Session) : Action → Session
  | .load i q =>
    match x.registries[i]? with
    | some r =>
      let (_, r, s) := r.load x.system q
      ⟨x.registries.set i r, s⟩
    | none => x
  | .addSearchPath i dir =>
    { x with registries := x.registries.modify i fun r => r.addSearchPath dir }
  | .change files => { x with system := x.system.withFiles files }

theorem act_load {x : Session} {i : Nat} {r : Registry} (hr : x.registries[i]? = some r)
    (q : Request) : x.act (.load i q) =
      ⟨x.registries.set i (r.load x.system q).2.1, (r.load x.system q).2.2⟩ := by
  rw [act, hr]

theorem act_load_of_none {x : Session} {i : Nat} (hr : x.registries[i]? = none) (q : Request) :
    x.act (.load i q) = x := by
  rw [act, hr]

/-- The session after some actions. -/
def run (x : Session) (actions : List Action) : Session :=
  actions.foldl act x

end Session

namespace Binding

/-- A session in which a binding is used. -/
structure Session extends JniLink.Session where
  binding : Binding

namespace Session

/-- What is done in a session of a binding. -/
inductive Action where
  /-- Something that the binding has no part in. -/
  | act (action : JniLink.Session.Action)
  /-- The binding is resolved in a registry. -/
  | getIn (registry : Nat)
  /-- The function of the binding is called in a registry. -/
  | call (registry : Nat)

/-- A session whose registries have loaded nothing and whose binding is not resolved. -/
def start (loaders : List Loader) (s : System) (library : String) (d : Declaration) : Session :=
  ⟨.start loaders s, .ofDeclaration library d⟩

/-- The session after an action. -/
def act (x : Session) : Action → Session
  | .act action => { x with toSession := x.toSession.act action }
  | .getIn i =>
    match x.registries[i]? with
    | some r => { x with binding := (x.binding.getIn r).2 }
    | none => x
  | .call i =>
    match x.registries[i]? with
    | some r => { x with binding := (x.binding.call r).2 }
    | none => x

/-- The session after some actions. -/
def run (x : Session) (actions : List Action) : Session :=
  actions.foldl act x

end Session

end Binding

end JniLink
