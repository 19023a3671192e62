import JniLink.Registry.Basic

/-!
# Concurrent use of a registry

A registry that several threads use at once, step by step. Every key has a cell. A load fetches the
cell and makes it if it is missing; the first thread that finds it empty claims it, runs the loader,
and publishes what that answered; all others wait for that. A look-up fetches the cell and reads it.
The lock on the cells is held while a cell is fetched, and the lock on the loader while it runs, so
each of these is one step; between any two steps other threads may act and files may change.

`run` follows any schedule. A step of a thread that waits or is done changes nothing.
-/

namespace JniLink.Registry

/-- What is known under a key. -/
inductive Cell where
  | empty
  /-- A thread runs the loader. -/
  | claimed (thread : Nat)
  | published (outcome : Outcome)

/-- What a thread asks of the registry. -/
inductive Call where
  | load (request : Request)
  | require (key : String)
  | get (key : String)
  | addSearchPath (dir : Path)

/-- What a call answers. -/
inductive Reply where
  | outcome (outcome : Outcome)
  | library (library : Option Library)
  | nothing

/-- How far a call has come. -/
inductive Phase where
  | start
  /-- A load that has fetched its cell. -/
  | fetched
  /-- A load that has claimed its cell. -/
  | loading
  /-- A load whose loader has answered. -/
  | answered (outcome : Outcome)
  /-- A look-up that has fetched its cell, if there was one. -/
  | looked (found : Bool)
  | done (reply : Reply)

/-- A call and how far it has come. -/
structure Thread where
  call : Call
  phase : Phase

/-- A registry in use, the threads that use it, and the system they run on. -/
structure Pool where
  loader : Loader
  cells : List (String × Cell)
  threads : List Thread
  system : System

namespace Pool

/-- What is known under a key, if it has a cell. -/
def cell? (p : Pool) (key : String) : Option Cell :=
  (p.cells.find? (·.1 = key)).map (·.2)

/-- Makes an empty cell for a key that has none. -/
def ensureCell (p : Pool) (key : String) : Pool :=
  match p.cell? key with
  | some _ => p
  | none => { p with cells := p.cells ++ [(key, .empty)] }

/-- Changes the cell of a key. -/
def setCell (p : Pool) (key : String) (c : Cell) : Pool :=
  { p with cells := p.cells.map fun entry => if entry.1 = key then (key, c) else entry }

/-- Moves a thread on. -/
def move (p : Pool) (i : Nat) (phase : Phase) : Pool :=
  { p with threads := p.threads.modify i fun t => { t with phase } }

/-- What a look-up reads from its cell. -/
def look (p : Pool) (key : String) (found : Bool) : Outcome :=
  match found, p.cell? key with
  | true, some (.published outcome) => outcome
  | _, _ => .error (.notLoaded key)

/-- One step of a load. -/
def stepLoad (p : Pool) (i : Nat) (q : Request) : Phase → Pool
  | .start => (p.ensureCell q.key).move i .fetched
  | .fetched =>
    match p.cell? q.key with
    | some .empty => (p.setCell q.key (.claimed i)).move i .loading
    | some (.published outcome) => p.move i (.done (.outcome outcome))
    | some (.claimed _) | none => p
  | .loading =>
    let outcome := q.run p.loader p.system
    { p with system := p.system.settle outcome }.move i (.answered outcome)
  | .answered outcome =>
    (p.setCell q.key (.published outcome)).move i (.done (.outcome outcome))
  | .looked _ | .done _ => p

/-- One step of a look-up; `reply` makes the answer from what was read. -/
def stepLook (p : Pool) (i : Nat) (key : String) (reply : Outcome → Reply) : Phase → Pool
  | .start => p.move i (.looked (p.cell? key).isSome)
  | .looked found => p.move i (.done (reply (p.look key found)))
  | _ => p

/-- One step of a thread. -/
def step (p : Pool) (i : Nat) : Pool :=
  match p.threads[i]? with
  | none => p
  | some t =>
    match t.call with
    | .load q => p.stepLoad i q t.phase
    | .require key => p.stepLook i key .outcome t.phase
    | .get key => p.stepLook i key (fun o => .library o.toOption) t.phase
    | .addSearchPath dir =>
      match t.phase with
      | .start => { p with loader := p.loader.add dir }.move i (.done .nothing)
      | _ => p

/-- What happens next: a thread makes a step, or the files change. -/
inductive Event where
  | step (thread : Nat)
  | change (files : FileTree)

/-- The pool after an event. -/
def handle (p : Pool) : Event → Pool
  | .step i => p.step i
  | .change files => { p with system := p.system.withFiles files }

/-- The pool after a schedule. -/
def run (p : Pool) (events : List Event) : Pool :=
  events.foldl handle p

/-- The answer of a thread that is done. -/
def reply? (p : Pool) (i : Nat) : Option Reply :=
  match p.threads[i]? with
  | some ⟨_, .done reply⟩ => some reply
  | _ => none

/-- A registry that some threads are about to use. -/
def start (r : Registry) (s : System) (calls : List Call) : Pool :=
  ⟨r.loader, r.outcomes.map fun (key, outcome) => (key, .published outcome),
    calls.map fun call => ⟨call, .start⟩, s⟩

/-- The registry that is left when no cell is claimed. -/
def registry (p : Pool) : Registry :=
  ⟨p.loader, p.cells.filterMap fun (key, c) =>
    match c with
    | .published outcome => some (key, outcome)
    | .empty | .claimed _ => none⟩

/-- A schedule in which all threads take turns, for so many rounds. -/
def turns (threads rounds : Nat) : List Event :=
  (List.replicate rounds ((List.range threads).map Event.step)).flatten

end Pool

/-- Loads a library in so many threads at once, which take turns: their answers, and what is left.
Four rounds bring the first thread to its answer, and all others with it. -/
def loadTogether (r : Registry) (s : System) (q : Request) (threads : Nat) :
    List Outcome × Registry × System :=
  let p := (Pool.start r s (List.replicate threads (.load q))).run (Pool.turns threads 4)
  let answers := (List.range threads).filterMap fun i =>
    match p.reply? i with
    | some (.outcome outcome) => some outcome
    | _ => none
  (answers, p.registry, p.system)

end JniLink.Registry
