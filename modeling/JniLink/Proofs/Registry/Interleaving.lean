import JniLink.Registry.Interleaving
import Mathlib.Control.Monad.Basic

/-!
# A registry loads once

What threads get from a registry that they use at once, over every schedule. For each key the loader
runs at most once, every load of the key that returns answers what the loader answered then, and what
is published stays: directories that are added later and files that change do not matter any more.
A look-up answers what is published at a moment between its call and its return, so it is an error
before anything is published and the outcome afterwards.

A thread makes one call. A caller that makes several is several threads, of which the schedule moves
each one only when the one before is done.

The proof follows one key. `Advance` lists what a step can do at all. Of that only what happens to the
cell of the key and to the loads of the key counts: `Turn` lists what that can be, and `Settled`, which
says how far each load can be for what is known, is kept by every turn. That loads return is not said: a
load waits as long as the thread that has claimed the cell makes no step.
-/

namespace JniLink.Registry

deriving instance DecidableEq for Call, Reply, Phase, Thread

/-- A call that looks a key up, and how it answers what it reads there. -/
inductive Call.LooksUp (key : String) : Call → (Outcome → Reply) → Prop where
  | require : LooksUp key (.require key) .outcome
  | get : LooksUp key (.get key) fun o => .library o.toOption

namespace Pool

/-- Whether a thread makes a step in an event. -/
def Event.isStepOf (i : Nat) : Event → Bool
  | .step j => j == i
  | .change _ => false

/-! ## What is known under a key -/

/-- What is known under a key; a cell that was not made yet is as good as an empty one. -/
def known (p : Pool) (key : String) : Cell :=
  (p.cell? key).getD .empty

/-- The outcome that is published under a key, if there is one. -/
def published? (p : Pool) (key : String) : Option Outcome :=
  match p.known key with
  | .published outcome => some outcome
  | .empty | .claimed _ => none

theorem published?_eq_some_iff {p : Pool} {key : String} {o : Outcome} :
    p.published? key = some o ↔ p.known key = .published o := by
  unfold published?
  split <;> simp_all

theorem cell?_setCell (p : Pool) (k key : String) (c : Cell) :
    (p.setCell k c).cell? key = if key = k then (p.cell? k).map fun _ => c else p.cell? key := by
  have hkeys : (fun entry : String × Cell => decide (entry.1 = key)) ∘
      (fun entry => if entry.1 = k then (k, c) else entry) = fun entry => decide (entry.1 = key) := by
    funext entry
    by_cases hk : entry.1 = k <;> simp [hk]
  simp only [cell?, setCell, List.find?_map, hkeys, Option.map_map]
  split
  next hk =>
    subst hk
    cases hfind : p.cells.find? (·.1 = key) with
    | none => rfl
    | some entry =>
      have hentry : entry.1 = key := by simpa using List.find?_some hfind
      simp [hentry]
  next hk =>
    cases hfind : p.cells.find? (·.1 = key) with
    | none => rfl
    | some entry =>
      have hentry : entry.1 = key := by simpa using List.find?_some hfind
      simp [hentry, hk]

theorem known_setCell_of_ne (p : Pool) {k key : String} (h : key ≠ k) (c : Cell) :
    (p.setCell k c).known key = p.known key := by
  rw [known, cell?_setCell, if_neg h, known]

theorem known_setCell_self {p : Pool} {key : String} (h : p.cell? key ≠ none) (c : Cell) :
    (p.setCell key c).known key = c := by
  obtain ⟨old, hold⟩ := Option.ne_none_iff_exists'.mp h
  rw [known, cell?_setCell, if_pos rfl, hold]
  rfl

theorem cell?_ne_none {p : Pool} {key : String} (h : p.known key ≠ .empty) :
    p.cell? key ≠ none := by
  intro hnone
  rw [known, hnone] at h
  exact h rfl

theorem known_ensureCell (p : Pool) (k key : String) :
    (p.ensureCell k).known key = p.known key := by
  unfold ensureCell
  split
  · rfl
  next hnone =>
    simp only [known, cell?, List.find?_append, List.find?_cons, List.find?_nil]
    cases hfind : p.cells.find? (·.1 = key) with
    | some entry => rfl
    | none => by_cases hk : k = key <;> simp [hk]

/-! ## One step -/

theorem threads_ensureCell (p : Pool) (k : String) : (p.ensureCell k).threads = p.threads := by
  unfold ensureCell
  split <;> rfl

theorem getElem?_threads_move (p : Pool) (i j : Nat) (phase : Phase) :
    (p.move i phase).threads[j]? =
      if j = i then p.threads[i]?.map fun t => { t with phase } else p.threads[j]? := by
  rw [move, List.getElem?_modify]
  by_cases h : j = i
  · subst h
    simp
  · have h' : ¬ i = j := fun e => h e.symm
    simp [h, h']

/-- All that a step can do for a call: how far the call comes, and what becomes of the pool before its
thread is moved on. -/
inductive Advance (p : Pool) (i : Nat) : Call → Phase → Phase → Pool → Prop where
  /-- A load fetches its cell, which is made if it is missing. -/
  | fetch (q : Request) : Advance p i (.load q) .start .fetched (p.ensureCell q.key)
  /-- A load finds its cell empty and claims it. -/
  | claim (q : Request) (empty : p.cell? q.key = some .empty) :
      Advance p i (.load q) .fetched .loading (p.setCell q.key (.claimed i))
  /-- A load finds an outcome in its cell and answers it. -/
  | read (q : Request) (o : Outcome) (published : p.cell? q.key = some (.published o)) :
      Advance p i (.load q) .fetched (.done (.outcome o)) p
  /-- The loader runs. -/
  | run (q : Request) : Advance p i (.load q) .loading (.answered (q.run p.loader p.system))
      { p with system := p.system.settle (q.run p.loader p.system) }
  /-- A load publishes what the loader answered. -/
  | publish (q : Request) (o : Outcome) : Advance p i (.load q) (.answered o) (.done (.outcome o))
      (p.setCell q.key (.published o))
  /-- A look-up fetches its cell, if there is one. -/
  | find {key : String} {call : Call} {reply : Outcome → Reply} (lookUp : call.LooksUp key reply) :
      Advance p i call .start (.looked (p.cell? key).isSome) p
  /-- A look-up reads its cell. -/
  | look {key : String} {call : Call} {reply : Outcome → Reply} (lookUp : call.LooksUp key reply)
      (found : Bool) : Advance p i call (.looked found) (.done (reply (p.look key found))) p
  | add (dir : Path) :
      Advance p i (.addSearchPath dir) .start (.done .nothing) { p with loader := p.loader.add dir }

theorem Advance.step_eq {p p' : Pool} {i : Nat} {call : Call} {phase phase' : Phase}
    (h : Advance p i call phase phase' p') (hthread : p.threads[i]? = some ⟨call, phase⟩) :
    p.step i = p'.move i phase' := by
  rw [step, hthread]
  cases h with
  | fetch | run | publish | add => rfl
  | claim q hcell | read q o hcell => simp only [stepLoad, hcell]
  | find lookUp | look lookUp => cases lookUp <;> rfl

/-- A step advances its thread if it can, and does nothing otherwise. -/
theorem step_cases (p : Pool) (i : Nat) :
    (∃ call phase phase' p', p.threads[i]? = some ⟨call, phase⟩ ∧
      Advance p i call phase phase' p' ∧ p.step i = p'.move i phase') ∨
    p.step i = p ∧ ∀ call phase phase' p', p.threads[i]? = some ⟨call, phase⟩ →
      ¬ Advance p i call phase phase' p' := by
  by_cases h : ∃ call phase phase' p',
      p.threads[i]? = some ⟨call, phase⟩ ∧ Advance p i call phase phase' p'
  · obtain ⟨call, phase, phase', p', hthread, hadvance⟩ := h
    exact .inl ⟨call, phase, phase', p', hthread, hadvance, hadvance.step_eq hthread⟩
  refine .inr ⟨?_, fun call phase phase' p' hthread hadvance =>
    h ⟨call, phase, phase', p', hthread, hadvance⟩⟩
  rw [step]
  split
  next => rfl
  next t hthread =>
    obtain ⟨call, phase⟩ := t
    have hstuck {phase' : Phase} {p' : Pool} : ¬ Advance p i call phase phase' p' :=
      fun hadvance => h ⟨_, _, _, _, hthread, hadvance⟩
    cases call with
    | load q =>
      cases phase with
      | start => exact absurd (.fetch q) hstuck
      | fetched =>
        -- the cell is claimed by another thread, or there is none
        simp only [stepLoad]
        split
        next hcell => exact absurd (.claim q hcell) hstuck
        next o hcell => exact absurd (.read q o hcell) hstuck
        next => rfl
        next => rfl
      | loading => exact absurd (.run q) hstuck
      | answered o => exact absurd (.publish q o) hstuck
      | looked | done => rfl
    | require key =>
      cases phase with
      | start => exact absurd (.find .require) hstuck
      | looked found => exact absurd (.look .require found) hstuck
      | fetched | loading | answered | done => rfl
    | get key =>
      cases phase with
      | start => exact absurd (.find .get) hstuck
      | looked found => exact absurd (.look .get found) hstuck
      | fetched | loading | answered | done => rfl
    | addSearchPath dir =>
      cases phase with
      | start => exact absurd (.add dir) hstuck
      | fetched | loading | answered | looked | done => rfl

theorem Advance.threads_eq {p p' : Pool} {i : Nat} {call : Call} {phase phase' : Phase}
    (h : Advance p i call phase phase' p') : p'.threads = p.threads := by
  cases h with
  | fetch q => exact threads_ensureCell p q.key
  | _ => rfl

/-- What is known under a key changes at most by a load of that key. -/
theorem Advance.known_eq {p p' : Pool} {i : Nat} {call : Call} {phase phase' : Phase}
    (h : Advance p i call phase phase' p') {key : String}
    (hcall : ∀ q, call = .load q → q.key ≠ key) : p'.known key = p.known key := by
  cases h with
  | fetch q => exact known_ensureCell p q.key key
  | claim q | publish q => exact known_setCell_of_ne p (hcall q rfl).symm _
  | read | run | find | look | add => rfl

/-! ## How far the loads of a key are -/

/-- How far a thread has come with a load of a key, if that is what it does. -/
def loadPhase? (p : Pool) (key : String) (i : Nat) : Option Phase :=
  match p.threads[i]? with
  | some ⟨.load q, phase⟩ => if q.key = key then some phase else none
  | _ => none

theorem loadPhase?_move (p : Pool) (key : String) (i j : Nat) (phase : Phase) :
    (p.move i phase).loadPhase? key j =
      if j = i then (p.loadPhase? key i).map fun _ => phase else p.loadPhase? key j := by
  rw [loadPhase?, getElem?_threads_move]
  by_cases h : j = i
  · subst h
    rw [if_pos rfl, if_pos rfl, loadPhase?]
    rcases p.threads[j]? with _ | ⟨_ | _ | _ | _, _⟩ <;> simp only [Option.map_some, Option.map_none]
    split <;> rfl
  · rw [if_neg h, if_neg h, loadPhase?]

/-! ## The runs of the loader -/

/-- What the loader answers in an event, if it runs there for a key. -/
def loaderAnswer? (p : Pool) (key : String) : Event → Option Outcome
  | .step i =>
    match p.threads[i]? with
    | some ⟨.load q, .loading⟩ => if q.key = key then some (q.run p.loader p.system) else none
    | _ => none
  | .change _ => none

/-- What the loader answers for a key over a schedule, one answer for each time it runs. -/
def loaderAnswers (p : Pool) (key : String) : List Event → List Outcome
  | [] => []
  | e :: es => (p.loaderAnswer? key e).toList ++ (p.handle e).loaderAnswers key es

/-- A thread has moved on with its load of a key, and no other thread with its own. -/
def Moved (key : String) (p p' : Pool) (i : Nat) (phase : Phase) : Prop :=
  ∀ j, p'.loadPhase? key j = if j = i then some phase else p.loadPhase? key j

/-- All that an event can do to one key, with what the loader answers there. -/
inductive Turn (key : String) (p p' : Pool) : Option Outcome → Prop where
  /-- Nothing is known that was not, and no load of the key goes on. -/
  | quiet (known : p'.known key = p.known key)
      (phases : ∀ i, p'.loadPhase? key i = p.loadPhase? key i) : Turn key p p' none
  /-- A load fetches the cell. -/
  | fetch (i : Nat) (phase : p.loadPhase? key i = some .start)
      (known : p'.known key = p.known key) (moved : Moved key p p' i .fetched) : Turn key p p' none
  /-- A load finds the cell empty and claims it. -/
  | claim (i : Nat) (phase : p.loadPhase? key i = some .fetched) (empty : p.known key = .empty)
      (known : p'.known key = .claimed i) (moved : Moved key p p' i .loading) : Turn key p p' none
  /-- A load finds an outcome and answers it. -/
  | read (i : Nat) (o : Outcome) (phase : p.loadPhase? key i = some .fetched)
      (published : p.known key = .published o) (known : p'.known key = p.known key)
      (moved : Moved key p p' i (.done (.outcome o))) : Turn key p p' none
  /-- The loader runs. -/
  | run (i : Nat) (o : Outcome) (phase : p.loadPhase? key i = some .loading)
      (known : p'.known key = p.known key) (moved : Moved key p p' i (.answered o)) :
      Turn key p p' (some o)
  /-- A load publishes what the loader answered, unless its claim is lost. -/
  | publish (i : Nat) (o : Outcome) (phase : p.loadPhase? key i = some (.answered o))
      (known : p.known key ≠ .empty → p'.known key = .published o)
      (moved : Moved key p p' i (.done (.outcome o))) : Turn key p p' none

theorem moved_move {p p' : Pool} {key : String} {i : Nat} (h : p.loadPhase? key i ≠ none)
    (hthreads : p'.threads = p.threads) (phase : Phase) : Moved key p (p'.move i phase) i phase := by
  have hsame (j : Nat) : p'.loadPhase? key j = p.loadPhase? key j := by
    rw [loadPhase?, hthreads, loadPhase?]
  obtain ⟨old, hold⟩ := Option.ne_none_iff_exists'.mp h
  intro j
  rw [loadPhase?_move, hsame, hsame, hold, Option.map_some]

/-- A step of a thread that is at no load of the key is quiet, whatever it does to other keys. -/
theorem Turn.of_move {p p' : Pool} {key : String} {i : Nat} {phase : Phase}
    (hthread : p.loadPhase? key i = none) (hthreads : p'.threads = p.threads)
    (hknown : p'.known key = p.known key) : Turn key p (p'.move i phase) none := by
  have hsame (j : Nat) : p'.loadPhase? key j = p.loadPhase? key j := by
    rw [loadPhase?, hthreads, loadPhase?]
  refine .quiet hknown fun j => ?_
  rw [loadPhase?_move, hsame, hsame, hthread]
  split
  next hj => rw [hj, hthread]; rfl
  next => rfl

theorem loaderAnswer?_eq_none {p : Pool} {key : String} {i : Nat}
    (h : p.loadPhase? key i ≠ some .loading) : p.loaderAnswer? key (.step i) = none := by
  rw [loaderAnswer?]
  split
  next q hthread =>
    split
    next hq =>
      refine absurd ?_ h
      rw [loadPhase?, hthread]
      exact if_pos hq
    next => rfl
  next => rfl

/-- A thread that is advanced with a load of a key takes that turn of the key. -/
theorem Advance.turn_of_load {p p' : Pool} {i : Nat} {q : Request} {phase phase' : Phase}
    (h : Advance p i (.load q) phase phase' p')
    (hthread : p.threads[i]? = some ⟨.load q, phase⟩) :
    Turn q.key p (p'.move i phase') (p.loaderAnswer? q.key (.step i)) := by
  have hphase : p.loadPhase? q.key i = some phase := by
    rw [loadPhase?, hthread]
    exact if_pos rfl
  have hmoved : Moved q.key p (p'.move i phase') i phase' :=
    moved_move (by rw [hphase]; exact nofun) h.threads_eq phase'
  have hanswer (hne : phase ≠ .loading) : p.loaderAnswer? q.key (.step i) = none :=
    loaderAnswer?_eq_none (by rw [hphase]; exact fun heq => hne (Option.some.inj heq))
  cases h with
  | fetch =>
    rw [hanswer nofun]
    exact .fetch i hphase (known_ensureCell p q.key q.key) hmoved
  | claim _ hcell =>
    rw [hanswer nofun]
    refine .claim i hphase ?_ (known_setCell_self ?_ _) hmoved
    · rw [known, hcell, Option.getD_some]
    · rw [hcell]
      exact nofun
  | read _ o hcell =>
    rw [hanswer nofun]
    refine .read i o hphase ?_ rfl hmoved
    rw [known, hcell, Option.getD_some]
  | run =>
    rw [loaderAnswer?, hthread]
    simp only [if_pos]
    exact .run i _ hphase rfl hmoved
  | publish _ o =>
    rw [hanswer nofun]
    exact .publish i o hphase (fun hne => known_setCell_self (cell?_ne_none hne) _) hmoved
  | find lookUp | look lookUp => cases lookUp

/-- Every event is a turn of every key. -/
theorem handle_turn (p : Pool) (key : String) (e : Event) :
    Turn key p (p.handle e) (p.loaderAnswer? key e) := by
  cases e with
  | change files => exact .quiet rfl fun _ => rfl
  | step i =>
    rw [handle]
    rcases p.step_cases i with ⟨call, phase, phase', p', hthread, hadvance, hstep⟩ | ⟨hstep, hstuck⟩
    · by_cases hload : ∃ q : Request, q.key = key ∧ call = .load q
      · obtain ⟨q, rfl, rfl⟩ := hload
        rw [hstep]
        exact hadvance.turn_of_load hthread
      · have hnone : p.loadPhase? key i = none := by
          rw [loadPhase?, hthread]
          cases call with
          | load q => exact if_neg fun hq => hload ⟨q, hq, rfl⟩
          | require | get | addSearchPath => rfl
        rw [hstep, loaderAnswer?_eq_none (by rw [hnone]; exact (Option.some_ne_none _).symm)]
        exact .of_move hnone hadvance.threads_eq
          (hadvance.known_eq fun q hq hkey => hload ⟨q, hkey, hq⟩)
    · have hanswer : p.loaderAnswer? key (.step i) = none := by
        rw [loaderAnswer?]
        split
        next q hthread => exact absurd (.run q) (hstuck _ _ _ _ hthread)
        next => rfl
      rw [hstep, hanswer]
      exact .quiet rfl fun _ => rfl

/-! ## The invariant -/

/-- How far a load of a key can be, when this is known under the key and the loader has given these
answers for it: the loader is run only by the thread that has claimed the cell, and what a load
answers is published. -/
def Fits (known : Cell) (answers : List Outcome) (i : Nat) : Phase → Prop
  | .start | .fetched | .looked _ => True
  | .loading => known = .claimed i ∧ answers = []
  | .answered o => known = .claimed i ∧ answers = [o]
  | .done reply => ∃ o, reply = .outcome o ∧ known = .published o

/-- A load that neither claims the cell nor finds it published has not gone far enough to mind what
becomes known. -/
theorem Fits.transfer {known : Cell} {answers : List Outcome} {i : Nat} {phase : Phase}
    (h : Fits known answers i phase) (hclaimed : known ≠ .claimed i)
    (hpublished : ∀ o, known ≠ .published o) (known' : Cell) (answers' : List Outcome) :
    Fits known' answers' i phase := by
  cases phase with
  | start | fetched | looked => trivial
  | loading | answered => exact absurd h.1 hclaimed
  | done reply =>
    obtain ⟨o, -, ho⟩ := h
    exact absurd ho (hpublished o)

/-- The cell of a key, its loads and the answers of the loader agree. -/
structure Settled (key : String) (answers : List Outcome) (p : Pool) : Prop where
  phases : ∀ i phase, p.loadPhase? key i = some phase → Fits (p.known key) answers i phase
  empty : p.known key = .empty → answers = []
  published : ∀ o, p.known key = .published o → answers = [o]
  length_le : answers.length ≤ 1

theorem Moved.fits {key : String} {p p' : Pool} {i : Nat} {phase : Phase} {known : Cell}
    {answers : List Outcome} (h : Moved key p p' i phase) (hi : Fits known answers i phase)
    (hothers : ∀ j phase', j ≠ i → p.loadPhase? key j = some phase' →
      Fits known answers j phase') :
    ∀ j phase', p'.loadPhase? key j = some phase' → Fits known answers j phase' := by
  intro j phase' hj
  rw [h j] at hj
  split at hj
  next hji =>
    cases hj
    exact hji ▸ hi
  next hji => exact hothers j phase' hji hj

/-- While one thread has claimed the cell, no other load minds what becomes known. -/
theorem Settled.fits_of_claimed {key : String} {answers : List Outcome} {p : Pool}
    (h : Settled key answers p) {i j : Nat} {phase : Phase} (hclaimed : p.known key = .claimed i)
    (hji : j ≠ i) (hj : p.loadPhase? key j = some phase) (known' : Cell) (answers' : List Outcome) :
    Fits known' answers' j phase := by
  have hfits := h.phases j phase hj
  rw [hclaimed] at hfits
  exact hfits.transfer (fun heq => hji (Cell.claimed.inj heq).symm) nofun known' answers'

theorem Settled.turn {key : String} {answers : List Outcome} {p p' : Pool} {answer : Option Outcome}
    (h : Settled key answers p) (hturn : Turn key p p' answer) :
    Settled key (answers ++ answer.toList) p' := by
  cases hturn with
  | quiet known phases =>
    rw [Option.toList_none, List.append_nil]
    refine ⟨fun i phase hi => ?_, known ▸ h.empty, known ▸ h.published, h.length_le⟩
    rw [phases i] at hi
    exact known ▸ h.phases i phase hi
  | fetch i phase known moved =>
    rw [Option.toList_none, List.append_nil]
    refine ⟨?_, known ▸ h.empty, known ▸ h.published, h.length_le⟩
    exact moved.fits trivial fun j phase' _ hj => known ▸ h.phases j phase' hj
  | claim i phase empty known moved =>
    rw [Option.toList_none, List.append_nil]
    refine ⟨?_, fun hempty => ?_, fun o ho => ?_, h.length_le⟩
    · rw [known]
      refine moved.fits ⟨rfl, h.empty empty⟩ fun j phase' _ hj => ?_
      have hfits := h.phases j phase' hj
      rw [empty] at hfits
      exact hfits.transfer nofun nofun _ _
    · rw [known] at hempty
      cases hempty
    · rw [known] at ho
      cases ho
  | read i o phase published known moved =>
    rw [Option.toList_none, List.append_nil]
    refine ⟨?_, known ▸ h.empty, known ▸ h.published, h.length_le⟩
    exact moved.fits ⟨o, rfl, known.trans published⟩ fun j phase' _ hj => known ▸ h.phases j phase' hj
  | run i o phase known moved =>
    -- the thread has claimed the cell, so nothing was answered before
    obtain ⟨hclaimed, rfl⟩ := h.phases i .loading phase
    rw [Option.toList_some, List.nil_append]
    refine ⟨?_, fun hempty => ?_, fun o' ho => ?_, Nat.le_refl 1⟩
    · rw [known, hclaimed]
      exact moved.fits ⟨rfl, rfl⟩ fun j phase' hji hj => h.fits_of_claimed hclaimed hji hj _ _
    · rw [known, hclaimed] at hempty
      cases hempty
    · rw [known, hclaimed] at ho
      cases ho
  | publish i o phase known moved =>
    obtain ⟨hclaimed, rfl⟩ := h.phases i (.answered o) phase
    have hknown : p'.known key = .published o := known (by rw [hclaimed]; exact nofun)
    rw [Option.toList_none, List.append_nil]
    refine ⟨?_, fun hempty => ?_, fun o' ho => ?_, Nat.le_refl 1⟩
    · rw [hknown]
      exact moved.fits ⟨o, rfl, rfl⟩ fun j phase' hji hj => h.fits_of_claimed hclaimed hji hj _ _
    · rw [hknown] at hempty
      cases hempty
    · rw [hknown] at ho
      cases ho
      rfl

/-- What is published stays. -/
theorem Settled.published_turn {key : String} {answers : List Outcome} {p p' : Pool}
    {answer : Option Outcome} (h : Settled key answers p) (hturn : Turn key p p' answer)
    {o : Outcome} (ho : p.published? key = some o) : p'.published? key = some o := by
  rw [published?_eq_some_iff] at ho ⊢
  cases hturn with
  | quiet known | fetch _ _ known | read _ _ _ _ known | run _ _ _ known => rw [known, ho]
  | claim i phase empty =>
    rw [empty] at ho
    cases ho
  | publish i o' phase =>
    have hclaimed := (h.phases i (.answered o') phase).1
    rw [ho] at hclaimed
    cases hclaimed

/-! ## Runs -/

theorem run_cons (p : Pool) (e : Event) (es : List Event) :
    p.run (e :: es) = (p.handle e).run es := rfl

theorem run_append (p : Pool) (es es' : List Event) : p.run (es ++ es') = (p.run es).run es' :=
  List.foldl_append

theorem Settled.run {key : String} {answers : List Outcome} {p : Pool} (h : Settled key answers p)
    (es : List Event) : Settled key (answers ++ p.loaderAnswers key es) (p.run es) := by
  induction es generalizing p answers with
  | nil => rwa [loaderAnswers, List.append_nil]
  | cons e es ih =>
    rw [loaderAnswers, ← List.append_assoc]
    exact ih (h.turn (handle_turn p key e))

theorem Settled.published_run {key : String} {answers : List Outcome} {p : Pool}
    (h : Settled key answers p) {o : Outcome} (ho : p.published? key = some o) (es : List Event) :
    (p.run es).published? key = some o := by
  induction es generalizing p answers with
  | nil => exact ho
  | cons e es ih =>
    have hturn := handle_turn p key e
    exact ih (h.turn hturn) (h.published_turn hturn ho)

theorem known_start (r : Registry) (s : System) (calls : List Call) (key : String) :
    (start r s calls).known key = ((r.find? key).map Cell.published).getD .empty := by
  have hkeys : (fun entry : String × Cell => decide (entry.1 = key)) ∘
      (fun entry : String × Outcome => (entry.1, Cell.published entry.2)) =
        fun entry => decide (entry.1 = key) := rfl
  simp only [known, cell?, start, List.find?_map, hkeys, Registry.find?, Option.map_map]
  rfl

theorem loadPhase?_start {r : Registry} {s : System} {calls : List Call} {key : String} {i : Nat}
    {phase : Phase} (h : (start r s calls).loadPhase? key i = some phase) : phase = .start := by
  unfold loadPhase? at h
  split at h
  next q phase' hthread =>
    rw [start, List.getElem?_map] at hthread
    obtain ⟨call, -, hcall⟩ := Option.map_eq_some_iff.mp hthread
    cases hcall
    split at h
    · exact (Option.some.inj h).symm
    · cases h
  next => cases h

/-- A registry that is about to be used is settled: what it has loaded before is published. -/
theorem settled_start (r : Registry) (s : System) (calls : List Call) (key : String) :
    Settled key (r.find? key).toList (start r s calls) := by
  have hphases (known : Cell) (answers : List Outcome) (i : Nat) (phase : Phase)
      (hi : (start r s calls).loadPhase? key i = some phase) : Fits known answers i phase := by
    rw [loadPhase?_start hi]
    trivial
  cases hfind : r.find? key with
  | none =>
    have hknown : (start r s calls).known key = .empty := by rw [known_start, hfind]; rfl
    refine ⟨hphases _ _, fun _ => rfl, fun o ho => ?_, Nat.zero_le 1⟩
    rw [hknown] at ho
    cases ho
  | some o =>
    have hknown : (start r s calls).known key = .published o := by rw [known_start, hfind]; rfl
    refine ⟨hphases _ _, fun hempty => ?_, fun o' ho => ?_, Nat.le_refl 1⟩
    · rw [hknown] at hempty
      cases hempty
    · rw [hknown] at ho
      cases ho
      rfl

/-! ## Look-ups -/

/-- A thread moves no other one. -/
theorem threads_step_of_ne (p : Pool) {i j : Nat} (h : j ≠ i) :
    (p.step i).threads[j]? = p.threads[j]? := by
  rcases p.step_cases i with ⟨_, _, phase', p', -, hadvance, hstep⟩ | ⟨hstep, -⟩
  · rw [hstep, getElem?_threads_move, if_neg h, hadvance.threads_eq]
  · rw [hstep]

theorem threads_handle_of_not {p : Pool} {e : Event} {i : Nat} (h : e.isStepOf i = false) :
    (p.handle e).threads[i]? = p.threads[i]? := by
  cases e with
  | change files => rfl
  | step j => exact threads_step_of_ne p fun hij => by simp [Event.isStepOf, hij] at h

theorem threads_run_of_not {p : Pool} {es : List Event} {i : Nat}
    (h : ∀ e ∈ es, e.isStepOf i = false) : (p.run es).threads[i]? = p.threads[i]? := by
  induction es generalizing p with
  | nil => rfl
  | cons e es ih =>
    rw [List.forall_mem_cons] at h
    rw [run_cons, ih h.2, threads_handle_of_not h.1]

theorem eq_step_of_isStepOf {e : Event} {i : Nat} (h : e.isStepOf i = true) : e = .step i := by
  cases e with
  | change files => cases h
  | step j => rw [eq_of_beq h]

/-- A schedule in which a thread makes a step is cut at the first one. -/
theorem exists_first_step {es : List Event} {i : Nat} (h : 1 ≤ es.countP (·.isStepOf i)) :
    ∃ es₁ es₂, es = es₁ ++ .step i :: es₂ ∧ (∀ e ∈ es₁, e.isStepOf i = false) ∧
      es.countP (·.isStepOf i) = es₂.countP (·.isStepOf i) + 1 := by
  obtain ⟨e, hmem, hstep⟩ := List.countP_pos_iff.mp h
  rw [eq_step_of_isStepOf hstep] at hmem hstep
  obtain ⟨es₁, es₂, rfl, hfirst⟩ := List.eq_append_cons_of_mem hmem
  have hquiet : ∀ e ∈ es₁, e.isStepOf i = false := fun e he =>
    Bool.eq_false_iff.mpr fun hother => hfirst (eq_step_of_isStepOf hother ▸ he)
  refine ⟨es₁, es₂, rfl, hquiet, ?_⟩
  have hnone : es₁.countP (·.isStepOf i) = 0 :=
    List.countP_eq_zero.mpr fun e he => Bool.eq_false_iff.mp (hquiet e he)
  rw [List.countP_append, hnone, Nat.zero_add, List.countP_cons_of_pos hstep]

section LookUp

variable {key : String} {call : Call} {reply : Outcome → Reply} {i : Nat}

theorem step_lookUp_start {p : Pool} (hcall : call.LooksUp key reply)
    (h : p.threads[i]? = some ⟨call, .start⟩) :
    (p.step i).threads[i]? = some ⟨call, .looked (p.cell? key).isSome⟩ := by
  rw [(Advance.find hcall).step_eq h, getElem?_threads_move, if_pos rfl, h]
  rfl

theorem step_lookUp_looked {p : Pool} {found : Bool} (hcall : call.LooksUp key reply)
    (h : p.threads[i]? = some ⟨call, .looked found⟩) :
    (p.step i).threads[i]? = some ⟨call, .done (reply (p.look key found))⟩ := by
  rw [(Advance.look hcall found).step_eq h, getElem?_threads_move, if_pos rfl, h]
  rfl

theorem step_lookUp_done {p : Pool} {a : Reply} (hcall : call.LooksUp key reply)
    (h : p.threads[i]? = some ⟨call, .done a⟩) : p.step i = p := by
  rw [step, h]
  cases hcall <;> rfl

theorem run_lookUp_done {p : Pool} {a : Reply} (hcall : call.LooksUp key reply)
    (h : p.threads[i]? = some ⟨call, .done a⟩) (es : List Event) :
    (p.run es).threads[i]? = some ⟨call, .done a⟩ := by
  induction es generalizing p with
  | nil => exact h
  | cons e es ih =>
    refine ih ?_
    cases hstep : e.isStepOf i with
    | false => rw [threads_handle_of_not hstep, h]
    | true => rw [eq_step_of_isStepOf hstep, handle, step_lookUp_done hcall h, h]

/-- A look-up that has fetched its cell reads it at its next step. -/
theorem run_lookUp_looked {p : Pool} {found : Bool} (hcall : call.LooksUp key reply)
    (h : p.threads[i]? = some ⟨call, .looked found⟩) {es : List Event}
    (hsteps : 1 ≤ es.countP (·.isStepOf i)) :
    ∃ es₁ es₂, es = es₁ ++ es₂ ∧
      (p.run es).threads[i]? = some ⟨call, .done (reply ((p.run es₁).look key found))⟩ := by
  obtain ⟨es₁, es₂, rfl, hquiet, -⟩ := exists_first_step hsteps
  refine ⟨es₁, .step i :: es₂, rfl, ?_⟩
  rw [run_append, run_cons]
  exact run_lookUp_done hcall (step_lookUp_looked hcall ((threads_run_of_not hquiet).trans h)) es₂

theorem look_true (p : Pool) (key : String) :
    p.look key true = (p.published? key).getD (.error (.notLoaded key)) := by
  unfold look published? known
  cases p.cell? key with
  | none => rfl
  | some c => cases c <;> rfl

theorem published?_eq_none {p : Pool} (h : p.cell? key = none) : p.published? key = none := by
  rw [published?, known, h]
  rfl

/-- A look-up answers what is published at a moment between its call and its return. It is done
after two steps of its own, whatever the others do. -/
theorem run_lookUp {p : Pool} (hcall : call.LooksUp key reply)
    (h : p.threads[i]? = some ⟨call, .start⟩) {es : List Event}
    (hsteps : 2 ≤ es.countP (·.isStepOf i)) :
    ∃ es₁ es₂, es = es₁ ++ es₂ ∧ (p.run es).reply? i =
      some (reply (((p.run es₁).published? key).getD (.error (.notLoaded key)))) := by
  obtain ⟨es₁, es₂, rfl, hquiet, hcount⟩ := exists_first_step (Nat.le_of_succ_le hsteps)
  rw [hcount] at hsteps
  have hstart : (p.run es₁).threads[i]? = some ⟨call, .start⟩ := (threads_run_of_not hquiet).trans h
  obtain ⟨es₃, es₄, rfl, hrun⟩ :=
    run_lookUp_looked hcall (step_lookUp_start hcall hstart) (Nat.le_of_succ_le_succ hsteps)
  rw [← handle] at hrun
  rw [reply?, run_append, run_cons, hrun]
  cases hcell : (p.run es₁).cell? key with
  | none =>
    -- without a cell the answer is settled when the look-up begins
    refine ⟨es₁, _, rfl, ?_⟩
    rw [published?_eq_none hcell]
    rfl
  | some c =>
    refine ⟨es₁ ++ .step i :: es₃, es₄, by simp, ?_⟩
    rw [Option.isSome_some, look_true, run_append, run_cons]

end LookUp

/-! ## Loading once -/

/-- Threads that load, look up and add directories while files change: the loader runs at most once
for a key, and not at all for one that was loaded before; a load that is done has answered what is
published; what is published is what the loader answered, and is published ever after; and a look-up
that begins after that answers it, while one that is done before answers that nothing is loaded. -/
theorem run_loads_once (r : Registry) (s : System) (calls : List Call) (es es' : List Event)
    (key : String) :
    let p := (start r s calls).run es
    let p' := p.run es'
    let answers := (r.find? key).toList ++ (start r s calls).loaderAnswers key es
    answers.length ≤ 1 ∧
    (∀ (i : Nat) (q : Request) (reply : Reply), q.key = key →
      p.threads[i]? = some ⟨.load q, .done reply⟩ →
      ∃ o, reply = .outcome o ∧ p.published? key = some o) ∧
    (∀ o, p.published? key = some o → answers = [o] ∧ p'.published? key = some o) ∧
    (∀ (i : Nat) (call : Call) (reply : Outcome → Reply), call.LooksUp key reply →
      p.threads[i]? = some ⟨call, .start⟩ → 2 ≤ es'.countP (·.isStepOf i) →
      (p'.published? key = none → p'.reply? i = some (reply (.error (.notLoaded key)))) ∧
      ∀ o, p.published? key = some o → p'.reply? i = some (reply o)) := by
  intro p p' answers
  have hp : Settled key answers p := (settled_start r s calls key).run es
  refine ⟨hp.length_le, fun i q reply hq hthread => ?_, fun o ho => ⟨?_, hp.published_run ho es'⟩,
    fun i call reply hcall hthread hsteps => ?_⟩
  · have hphase : p.loadPhase? key i = some (.done reply) := by
      rw [loadPhase?, hthread]
      exact if_pos hq
    obtain ⟨o, ho, hknown⟩ := hp.phases i _ hphase
    exact ⟨o, ho, published?_eq_some_iff.mpr hknown⟩
  · exact hp.published o (published?_eq_some_iff.mp ho)
  · obtain ⟨es₁, es₂, hes, hreply⟩ := run_lookUp hcall hthread hsteps
    rw [hreply]
    constructor
    -- what is published at the moment of the look-up would still be published at the end
    · intro hnone
      cases hmoment : (p.run es₁).published? key with
      | none => rfl
      | some o =>
        have hlast := (hp.run es₁).published_run hmoment es₂
        rw [← run_append, ← hes, hnone] at hlast
        cases hlast
    · intro o ho
      rw [hp.published_run ho es₁]
      rfl

/-- A bare name and a path share a key. The path is loaded while the name claims the cell and answers
its library; a look-up before that finds nothing, and one behind a change of directories and files
finds the library. -/
theorem run_loads_once_shared_key :
    let r := Registry.ofLoader ⟨[⟨"libs"⟩]⟩
    let image : Image := ⟨[("f", some [104, 105])]⟩
    let s : System := { (default : System) with
      files := ⟨[(["libs"], .directory), (["libs", "libx.so"], .file (.image image))]⟩ }
    let library : Library :=
      ⟨0, "x", ⟨"libs/libx.so"⟩, ⟨["libs", "libx.so"], ⟨"libs/libx.so"⟩⟩, image, none⟩
    let calls : List Call := [.load (.bare "x"), .load (.file ⟨"x"⟩), .require "x", .get "x",
      .addSearchPath ⟨"more"⟩]
    let es : List Event := [.step 2, .step 0, .step 1, .step 0, .step 1, .step 0, .step 2, .step 0,
      .step 1]
    let es' : List Event := [.step 3, .change .empty, .step 4, .step 3]
    let p := (start r s calls).run es
    p.threads[1]? = some ⟨.load (.file ⟨"x"⟩), .done (.outcome (.ok library))⟩ ∧
      p.published? "x" = some (.ok library) ∧
      (start r s calls).loaderAnswers "x" es = [.ok library] ∧
      p.reply? 2 = some (.outcome (.error (.notLoaded "x"))) ∧
      (p.run es').reply? 3 = some (.library (some library)) := by
  intro r image s library calls es es' p
  have hthread : p.threads[1]? =
      some ⟨.load (.file ⟨"x"⟩), .done (.outcome (.ok library))⟩ := by decide +kernel
  obtain ⟨-, hload, hpublished, hlook⟩ := run_loads_once r s calls es es' "x"
  obtain ⟨-, -, -, hearly⟩ := run_loads_once r s calls [] (es.take 7) "x"
  obtain ⟨o, ho, hp⟩ := hload 1 (.file ⟨"x"⟩) _ rfl hthread
  cases ho
  refine ⟨hthread, hp, ?_, ?_, ?_⟩
  · have hanswers := (hpublished _ hp).1
    rwa [show r.find? "x" = none from rfl, Option.toList_none, List.nil_append] at hanswers
  · have hnone := (hearly 2 (.require "x") _ .require (by decide +kernel) (by decide)).1
      (by decide +kernel)
    rw [← hnone]
    decide +kernel
  · exact (hlook 3 (.get "x") _ .get (by decide +kernel) (by decide)).2 _ hp

end Pool

end JniLink.Registry
