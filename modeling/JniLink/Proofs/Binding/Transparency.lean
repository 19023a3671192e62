import JniLink.Proofs.Session.Identity
import Mathlib.Control.Monad.Basic

/-!
# A binding answers as if it kept nothing

What a binding keeps is a function and the library in which it was bound. In use by one operation
after the other that library stays in its registry and its number belongs to it alone, so wherever
the kept function is answered a fresh look-up would have answered it too.
-/

namespace JniLink

/-- The function that a declaration is bound to in a library of a registry, looked up afresh. -/
def Registry.bind (r : Registry) (library : String) (d : Declaration) : Except LinkError Pointer :=
  (r.require library).bind fun l => l.bind d

theorem Registry.bind_of_ok {r : Registry} {library : String} {l : Library}
    (h : r.require library = .ok l) (d : Declaration) : r.bind library d = l.bind d := by
  rw [bind, h]
  rfl

theorem Registry.bind_of_error {r : Registry} {library : String} {e : LinkError}
    (h : r.require library = .error e) (d : Declaration) : r.bind library d = .error e := by
  rw [bind, h]
  rfl

namespace Binding

/-! ## One look-up -/

/-- Everything that a look-up can do. -/
theorem getIn_cases (b : Binding) (r : Registry) :
    (∃ e, r.bind b.library b.declaration = .error e ∧ b.getIn r = (.error e, b)) ∨
    (∃ l cached p, r.require b.library = .ok l ∧ b.resolved = some (cached, p) ∧
      b.getIn r = (if cached.id = l.id then .ok p else l.bind b.declaration, b)) ∨
    ∃ l p, r.require b.library = .ok l ∧ b.resolved = none ∧ l.bind b.declaration = .ok p ∧
      b.getIn r = (.ok p, { b with resolved := some (l, p) }) := by
  cases hrequire : r.require b.library with
  | error e => exact .inl ⟨e, Registry.bind_of_error hrequire _, by rw [getIn, hrequire]⟩
  | ok l =>
    cases hres : b.resolved with
    | some kept => exact .inr (.inl ⟨l, kept.1, kept.2, rfl, rfl, by rw [getIn, hrequire, hres]⟩)
    | none =>
      cases hbind : l.bind b.declaration with
      | error e =>
        exact .inl ⟨e, (Registry.bind_of_ok hrequire _).trans hbind,
          by simp only [getIn, hrequire, hres, hbind]⟩
      | ok p =>
        exact .inr (.inr ⟨l, p, rfl, rfl, hbind, by simp only [getIn, hrequire, hres, hbind]⟩)

variable (b : Binding) (r : Registry)

theorem getIn_snd_library : (b.getIn r).2.library = b.library := by
  rcases b.getIn_cases r with ⟨e, -, h⟩ | ⟨l, cached, p, -, -, h⟩ | ⟨l, p, -, -, -, h⟩ <;> rw [h]

theorem getIn_snd_declaration : (b.getIn r).2.declaration = b.declaration := by
  rcases b.getIn_cases r with ⟨e, -, h⟩ | ⟨l, cached, p, -, -, h⟩ | ⟨l, p, -, -, -, h⟩ <;> rw [h]

variable {b r}

/-- A look-up that fails keeps nothing. -/
theorem getIn_snd_of_error {e : LinkError} (h : (b.getIn r).1 = .error e) : (b.getIn r).2 = b := by
  rcases b.getIn_cases r with
    ⟨e', -, hget⟩ | ⟨l, cached, p, -, -, hget⟩ | ⟨l, p, -, -, -, hget⟩
  · rw [hget]
  · rw [hget]
  · rw [hget] at h
    cases h

/-- What a look-up leaves behind is what it found, or was bound by it in its own registry. -/
theorem of_resolved_getIn {l : Library} {p : Pointer} (h : (b.getIn r).2.resolved = some (l, p)) :
    b.resolved = some (l, p) ∨
      r.require b.library = .ok l ∧ l.bind b.declaration = .ok p := by
  rcases b.getIn_cases r with
    ⟨e, -, hget⟩ | ⟨l', cached, p', -, -, hget⟩ | ⟨l', p', hrequire, -, hbind, hget⟩
  · rw [hget] at h
    exact .inl h
  · rw [hget] at h
    exact .inl h
  · rw [hget] at h
    cases h
    exact .inr ⟨hrequire, hbind⟩

theorem isResolved_getIn_iff :
    (b.getIn r).2.isResolved = true ↔ b.isResolved = true ∨ ∃ p, (b.getIn r).1 = .ok p := by
  rcases b.getIn_cases r with
    ⟨e, -, hget⟩ | ⟨l, cached, p, -, hres, hget⟩ | ⟨l, p, -, -, -, hget⟩
  · simp [hget]
  · simp [hget, isResolved, hres]
  · simp [hget, isResolved]

/-- A look-up answers as a fresh one does if the kept function is what its library binds. -/
theorem getIn_fst (h : ∀ cached p l, b.resolved = some (cached, p) → r.require b.library = .ok l →
      cached.id = l.id → l.bind b.declaration = .ok p) :
    (b.getIn r).1 = r.bind b.library b.declaration := by
  rcases b.getIn_cases r with
    ⟨e, hbind, hget⟩ | ⟨l, cached, p, hrequire, hres, hget⟩ | ⟨l, p, hrequire, -, hbind, hget⟩ <;>
    rw [hget]
  · exact hbind.symm
  · rw [Registry.bind_of_ok hrequire]
    show (if cached.id = l.id then .ok p else l.bind b.declaration) = l.bind b.declaration
    split
    next hid => exact (h cached p l hres hrequire hid).symm
    next => rfl
  · exact ((Registry.bind_of_ok hrequire b.declaration).trans hbind).symm

theorem call_snd : (b.call r).2 = (b.getIn r).2 := by
  rw [call]
  split <;> next h => rw [h]

/-- A call looks the function up and reads what it answers. -/
theorem call_fst : (b.call r).1 = (b.getIn r).1.bind b.readText := by
  have hdeclaration := b.getIn_snd_declaration r
  rw [call]
  split
  next e b' h => rw [h]; rfl
  next p b' h =>
    rw [h] at hdeclaration ⊢
    show b'.readText p = b.readText p
    rw [readText, readText, hdeclaration]

/-! ## A whole session -/

namespace Session

/-- What the look-up of an action answers, if the action makes one. -/
def answer? (x : Session) : Action → Option (Except LinkError Pointer)
  | .act _ => none
  | .getIn i | .call i => x.registries[i]?.map fun r => (x.binding.getIn r).1

/-- What the look-ups of some actions answer, one after the other. -/
def answers (x : Session) : List Action → List (Except LinkError Pointer)
  | [] => []
  | a :: actions => (x.answer? a).toList ++ (x.act a).answers actions

/-- Everything that an action can do. -/
theorem act_cases (x : Session) (a : Action) :
    (∃ action, x.act a = { x with toSession := x.toSession.act action } ∧ x.answer? a = none) ∨
    (x.act a = x ∧ x.answer? a = none) ∨
    ∃ r ∈ x.registries, x.act a = { x with binding := (x.binding.getIn r).2 } ∧
      x.answer? a = some (x.binding.getIn r).1 := by
  cases a with
  | act action => exact .inl ⟨action, rfl, rfl⟩
  | getIn i | call i =>
    cases hr : x.registries[i]? with
    | none => exact .inr (.inl ⟨by rw [act, hr], by rw [answer?, hr, Option.map_none]⟩)
    | some r =>
      refine .inr (.inr ⟨r, List.mem_of_getElem? hr, ?_, ?_⟩)
      · simp only [act, hr, call_snd]
      · rw [answer?, hr, Option.map_some]

/-- The binding is for this declaration, and what it keeps was bound in a library that some registry
holds. -/
structure Faithful (library : String) (d : Declaration) (x : Session) : Prop where
  identified : x.Identified
  library_eq : x.binding.library = library
  declaration_eq : x.binding.declaration = d
  holds : ∀ l p, x.binding.resolved = some (l, p) → x.Holds l
  bind_eq : ∀ l p, x.binding.resolved = some (l, p) → l.bind d = .ok p

variable {library : String} {d : Declaration} {x : Session}

theorem Faithful.getIn_fst (h : x.Faithful library d) {r : Registry} (hr : r ∈ x.registries) :
    (x.binding.getIn r).1 = r.bind library d := by
  rw [← h.library_eq, ← h.declaration_eq]
  refine Binding.getIn_fst fun cached p l hres hrequire hid => ?_
  have hcached : cached = l :=
    h.identified.eq_of_id cached l (h.holds cached p hres) (x.holds_of_require hr hrequire) hid
  rw [h.declaration_eq, ← hcached]
  exact h.bind_eq cached p hres

theorem Faithful.act (h : x.Faithful library d) (a : Action) : (x.act a).Faithful library d := by
  rcases x.act_cases a with ⟨action, hact, -⟩ | ⟨hact, -⟩ | ⟨r, hr, hact, -⟩ <;> rw [hact]
  · exact ⟨h.identified.act action, h.library_eq, h.declaration_eq,
      fun l p hres => (h.holds l p hres).act action, h.bind_eq⟩
  · exact h
  · refine ⟨h.identified, ?_, ?_, fun l p hres => ?_, fun l p hres => ?_⟩
    · exact (x.binding.getIn_snd_library r).trans h.library_eq
    · exact (x.binding.getIn_snd_declaration r).trans h.declaration_eq
    · rcases of_resolved_getIn hres with hbefore | ⟨hrequire, -⟩
      · exact h.holds l p hbefore
      · exact x.holds_of_require hr hrequire
    · rcases of_resolved_getIn hres with hbefore | ⟨-, hbind⟩
      · exact h.bind_eq l p hbefore
      · rwa [h.declaration_eq] at hbind

theorem Faithful.run (h : x.Faithful library d) (actions : List Action) :
    (x.run actions).Faithful library d := by
  induction actions generalizing x with
  | nil => exact h
  | cons a actions ih => exact ih (h.act a)

theorem faithful_start (loaders : List Loader) (s : System) (library : String) (d : Declaration) :
    (start loaders s library d).Faithful library d :=
  ⟨JniLink.Session.identified_start loaders s, rfl, rfl, nofun, nofun⟩

theorem isResolved_act_iff (a : Action) : (x.act a).binding.isResolved = true ↔
    x.binding.isResolved = true ∨ ∃ p, x.answer? a = some (.ok p) := by
  rcases x.act_cases a with ⟨action, hact, hanswer⟩ | ⟨hact, hanswer⟩ | ⟨r, -, hact, hanswer⟩ <;>
    rw [hact, hanswer]
  · simp
  · simp
  · simpa using isResolved_getIn_iff

/-- The binding is resolved as soon as a look-up has succeeded, and from then on. -/
theorem isResolved_run_iff (actions : List Action) : (x.run actions).binding.isResolved = true ↔
    x.binding.isResolved = true ∨ ∃ p, .ok p ∈ x.answers actions := by
  induction actions generalizing x with
  | nil => simp [run, answers]
  | cons a actions ih =>
    have hrun : x.run (a :: actions) = (x.act a).run actions := rfl
    rw [hrun, ih, isResolved_act_iff, answers]
    simp only [List.mem_append, Option.mem_toList, exists_or, or_assoc]

/-- After any operations, a look-up in a registry answers as a fresh one does, and so does a call,
which then reads the text; a look-up that fails changes nothing. The binding is resolved if and only
if a look-up has succeeded. -/
theorem run_transparent {loaders : List Loader} {s : System} {library : String} {d : Declaration}
    {actions : List Action} {x : Session} (hx : (start loaders s library d).run actions = x) :
    (∀ r ∈ x.registries,
      (x.binding.getIn r).1 = r.bind library d ∧
      (x.binding.call r).1 = (r.bind library d).bind x.binding.readText ∧
      (x.binding.call r).2 = (x.binding.getIn r).2 ∧
      ∀ e, (x.binding.getIn r).1 = .error e → (x.binding.getIn r).2 = x.binding) ∧
    (x.binding.isResolved = true ↔ ∃ p, .ok p ∈ (start loaders s library d).answers actions) := by
  subst hx
  have h := (faithful_start loaders s library d).run actions
  refine ⟨fun r hr => ⟨h.getIn_fst hr, ?_, call_snd, fun e => getIn_snd_of_error⟩, ?_⟩
  · rw [call_fst, h.getIn_fst hr]
  · have hstart : ¬ (start loaders s library d).binding.isResolved = true := Bool.false_ne_true
    rw [isResolved_run_iff, or_iff_right hstart]

/-- Two registries hold different libraries under one name. The binding is resolved in the first one
and answers there what it keeps, and in the second one what a fresh look-up finds. -/
theorem run_transparent_two_libraries :
    let image (answer : UInt8) : Image := ⟨[("f", some [answer])]⟩
    let s : System := { (default : System) with
      files := ⟨[(["a"], .directory), (["a", "libx.so"], .file (.image (image 0x61))),
        (["b"], .directory), (["b", "libx.so"], .file (.image (image 0x62)))]⟩ }
    let loaders : List Loader := [⟨[⟨"a"⟩]⟩, ⟨[⟨"b"⟩]⟩]
    let d : Declaration := .ofExport "f" ⟨[], .object "java/lang/String"⟩
    let actions : List Action := [.getIn 0, .act (.load 1 (.bare "x")), .act (.load 0 (.bare "x")),
      .call 0, .act (.change .empty)]
    let x := (start loaders s "x" d).run actions
    (start loaders s "x" d).answers actions = [.error (.notLoaded "x"), .ok ⟨1, "f", some [0x61]⟩] ∧
      x.binding.isResolved = true ∧
      (x.registries.map fun r => r.bind "x" d) =
        [.ok ⟨1, "f", some [0x61]⟩, .ok ⟨0, "f", some [0x62]⟩] ∧
      ∀ r ∈ x.registries, (x.binding.getIn r).1 = r.bind "x" d := by
  intro image s loaders d actions x
  obtain ⟨hlookUp, hresolved⟩ := run_transparent (rfl : (start loaders s "x" d).run actions = x)
  have hanswers : (start loaders s "x" d).answers actions =
      [.error (.notLoaded "x"), .ok ⟨1, "f", some [0x61]⟩] := by
    decide +kernel
  refine ⟨hanswers, ?_, by decide +kernel, fun r hr => (hlookUp r hr).1⟩
  rw [hresolved, hanswers]
  exact ⟨_, List.mem_cons_of_mem _ List.mem_cons_self⟩

end Session

end Binding

end JniLink
