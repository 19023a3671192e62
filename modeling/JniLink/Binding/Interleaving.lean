import JniLink.Binding.Basic

/-!
# Concurrent use of a binding

A binding that several threads use at once, each with a registry of its own, step by step: a call
takes the library from its registry, reads what the binding has kept, binds the declaration if that
is nothing, and then keeps its function, unless another call was faster, whose function it answers
instead.
-/

namespace JniLink.Binding

/-- How far a call has come. -/
inductive Phase where
  | start
  /-- The call has the library of its registry. -/
  | required (library : Library)
  /-- The call found nothing kept and has bound the declaration. -/
  | bound (library : Library) (pointer : Pointer)
  | done (reply : Except LinkError Pointer)

/-- A call and how far it has come. -/
structure Thread where
  registry : Registry
  phase : Phase

/-- A binding in use and the threads that use it. -/
structure Pool where
  binding : Binding
  threads : List Thread

namespace Pool

/-- Moves a thread on. -/
def move (p : Pool) (i : Nat) (phase : Phase) : Pool :=
  { p with threads := p.threads.modify i fun t => { t with phase } }

/-- One step of a call. -/
def stepCall (p : Pool) (i : Nat) (registry : Registry) : Phase → Pool
  | .start =>
    match registry.require p.binding.library with
    | .error e => p.move i (.done (.error e))
    | .ok library => p.move i (.required library)
  | .required library =>
    match p.binding.resolved with
    | some (cached, pointer) =>
      if cached.id = library.id then p.move i (.done (.ok pointer))
      else p.move i (.done (library.bind p.binding.declaration))
    | none =>
      match library.bind p.binding.declaration with
      | .error e => p.move i (.done (.error e))
      | .ok pointer => p.move i (.bound library pointer)
  | .bound library pointer =>
    match p.binding.resolved with
    | some (_, kept) => p.move i (.done (.ok kept))
    | none =>
      { p with binding := { p.binding with resolved := some (library, pointer) } }.move i
        (.done (.ok pointer))
  | .done _ => p

/-- One step of a thread. -/
def step (p : Pool) (i : Nat) : Pool :=
  match p.threads[i]? with
  | none => p
  | some t => p.stepCall i t.registry t.phase

/-- The pool after a schedule. -/
def run (p : Pool) (schedule : List Nat) : Pool :=
  schedule.foldl step p

/-- A binding that calls with some registries are about to use. -/
def start (b : Binding) (registries : List Registry) : Pool :=
  ⟨b, registries.map fun registry => ⟨registry, .start⟩⟩

/-- The answer of a call that is done. -/
def reply? (p : Pool) (i : Nat) : Option (Except LinkError Pointer) :=
  match p.threads[i]? with
  | some ⟨_, .done reply⟩ => some reply
  | _ => none

end Pool

end JniLink.Binding
