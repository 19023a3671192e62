import JniLink.Binding.Interleaving
import JniLink.Proofs.Binding.Transparency

/-!
# Calls that race for a binding

What calls get from a binding that they use at once, each with a registry of its own, over every
schedule. A call that begins when the binding is resolved answers as a fresh look-up in its registry
does. A call that found nothing kept may be outrun before it keeps its function; then it answers the
function of the call that was faster, although its registry may hold another library.

Calls are told apart by `late`: a late call began when the binding was resolved, so it never binds a
function to keep, and nobody can outrun it.
-/

namespace JniLink.Binding.Pool

deriving instance DecidableEq for Registry, Phase, Thread

/-! ## One step -/

/-- All that a step can do to a call and to the binding. -/
inductive Turn (b : Binding) (r : Registry) : Phase → Phase → Binding → Prop where
  /-- The registry does not hold the library. -/
  | refuse (e : LinkError) (require : r.require b.library = .error e) :
      Turn b r .start (.done (.error e)) b
  | require (l : Library) (require : r.require b.library = .ok l) : Turn b r .start (.required l) b
  /-- Something is kept. -/
  | read (l cached : Library) (q : Pointer) (resolved : b.resolved = some (cached, q)) :
      Turn b r (.required l) (.done (if cached.id = l.id then .ok q else l.bind b.declaration)) b
  /-- Nothing is kept, and the library does not bind the declaration. -/
  | fail (l : Library) (e : LinkError) (resolved : b.resolved = none)
      (bind : l.bind b.declaration = .error e) : Turn b r (.required l) (.done (.error e)) b
  /-- Nothing is kept, and the library binds the declaration. -/
  | bind (l : Library) (q : Pointer) (resolved : b.resolved = none)
      (bind : l.bind b.declaration = .ok q) : Turn b r (.required l) (.bound l q) b
  /-- Another call was faster. -/
  | lose (l cached : Library) (q kept : Pointer) (resolved : b.resolved = some (cached, kept)) :
      Turn b r (.bound l q) (.done (.ok kept)) b
  | keep (l : Library) (q : Pointer) (resolved : b.resolved = none) :
      Turn b r (.bound l q) (.done (.ok q)) { b with resolved := some (l, q) }

theorem getElem?_threads_move (p : Pool) (i j : Nat) (phase : Phase) :
    (p.move i phase).threads[j]? =
      p.threads[j]?.map fun t => if i = j then { t with phase } else t := by
  rw [move, List.getElem?_modify]
  rfl

theorem registries_move (p : Pool) (i : Nat) (phase : Phase) :
    (p.move i phase).threads.map Thread.registry = p.threads.map Thread.registry := by
  refine List.ext_getElem? fun j => ?_
  rw [List.getElem?_map, List.getElem?_map, getElem?_threads_move, Option.map_map]
  congr 1
  funext t
  show (if i = j then { t with phase } else t).registry = t.registry
  split <;> rfl

/-- A step does nothing, or it is a turn of one call. -/
theorem step_cases (p : Pool) (i : Nat) : p.step i = p ∨
    ∃ t phase b, p.threads[i]? = some t ∧ Turn p.binding t.registry t.phase phase b ∧
      p.step i = { p with binding := b }.move i phase := by
  cases ht : p.threads[i]? with
  | none => exact .inl (by rw [step, ht])
  | some t =>
    obtain ⟨r, phase⟩ := t
    have hstep : p.step i = p.stepCall i r phase := by rw [step, ht]
    rw [hstep]
    cases phase with
    | start =>
      refine .inr ⟨⟨r, .start⟩, ?_⟩
      cases hrequire : r.require p.binding.library with
      | error e => exact ⟨_, _, rfl, .refuse e hrequire, by rw [stepCall, hrequire]⟩
      | ok l => exact ⟨_, _, rfl, .require l hrequire, by rw [stepCall, hrequire]⟩
    | required l =>
      refine .inr ⟨⟨r, .required l⟩, ?_⟩
      cases hres : p.binding.resolved with
      | some kept =>
        refine ⟨_, _, rfl, .read l kept.1 kept.2 hres, ?_⟩
        simp only [stepCall, hres]
        split <;> rfl
      | none =>
        cases hbind : l.bind p.binding.declaration with
        | error e => exact ⟨_, _, rfl, .fail l e hres hbind, by simp only [stepCall, hres, hbind]⟩
        | ok q => exact ⟨_, _, rfl, .bind l q hres hbind, by simp only [stepCall, hres, hbind]⟩
    | bound l q =>
      refine .inr ⟨⟨r, .bound l q⟩, ?_⟩
      cases hres : p.binding.resolved with
      | some kept => exact ⟨_, _, rfl, .lose l kept.1 q kept.2 hres, by rw [stepCall, hres]⟩
      | none => exact ⟨_, _, rfl, .keep l q hres, by rw [stepCall, hres]⟩
    | done reply => exact .inl rfl

/-! ## A whole schedule -/

/-- A call was outrun: it answers the function that the binding keeps, which was bound in the library
of some other registry, although its own look-up succeeds too. -/
structure Outrun (b : Binding) (registries : List Registry) (library : String) (d : Declaration)
    (r : Registry) (reply : Except LinkError Pointer) : Prop where
  own : ∃ q, r.bind library d = .ok q
  other : ∃ r' ∈ registries, ∃ l q, r'.require library = .ok l ∧ l.bind d = .ok q ∧
    b.resolved = some (l, q) ∧ reply = .ok q

/-- How far a call can be, with what it has found on its way. -/
def Standing (b : Binding) (registries : List Registry) (library : String) (d : Declaration)
    (late : Prop) (r : Registry) : Phase → Prop
  | .start => True
  | .required l => r.require library = .ok l
  | .bound l q => ¬ late ∧ r.require library = .ok l ∧ l.bind d = .ok q
  | .done reply =>
    reply = r.bind library d ∨ ¬ late ∧ Outrun b registries library d r reply

/-- As long as nothing is kept no call was outrun, so a function that is kept now was none before. -/
theorem Standing.of_none {b : Binding} {registries : List Registry} {library : String}
    {d : Declaration} {late : Prop} {r : Registry} {phase : Phase}
    (h : Standing b registries library d late r phase) (hres : b.resolved = none) (b' : Binding) :
    Standing b' registries library d late r phase := by
  cases phase with
  | start | required | bound => exact h
  | done reply =>
    rcases h with hown | ⟨-, -, r', -, l, q, -, -, hkept, -⟩
    · exact .inl hown
    · rw [hres] at hkept
      cases hkept

/-- What is so at every moment. What the binding keeps was bound in the library of one of the
registries, and it is kept already if some call is late. -/
structure Sound (registries : List Registry) (library : String) (d : Declaration)
    (late : Nat → Prop) (p : Pool) : Prop where
  registries_eq : p.threads.map Thread.registry = registries
  library_eq : p.binding.library = library
  declaration_eq : p.binding.declaration = d
  resolved : ∀ l q, p.binding.resolved = some (l, q) →
    l.bind d = .ok q ∧ ∃ r ∈ registries, r.require library = .ok l
  resolved_of_late : ∀ i, late i → p.binding.resolved ≠ none
  standing : ∀ i t, p.threads[i]? = some t →
    Standing p.binding registries library d (late i) t.registry t.phase

variable {registries : List Registry} {library : String} {d : Declaration} {late : Nat → Prop}
  {p : Pool}

theorem Sound.registry_mem (h : p.Sound registries library d late) {i : Nat} {t : Thread}
    (ht : p.threads[i]? = some t) : t.registry ∈ registries := by
  rw [← h.registries_eq]
  exact List.mem_map_of_mem (List.mem_of_getElem? ht)

/-- Two registries that hold a library of one number under the name hold the same library. -/
def Agree (registries : List Registry) (library : String) : Prop :=
  ∀ r ∈ registries, ∀ r' ∈ registries, ∀ l l', r.require library = .ok l →
    r'.require library = .ok l' → l.id = l'.id → l = l'

/-- A turn leaves a call with what it has found. -/
theorem Sound.standing_turn (h : p.Sound registries library d late)
    (hagree : Agree registries library) {i : Nat} {t : Thread} (ht : p.threads[i]? = some t)
    {phase : Phase} {b : Binding} (hturn : Turn p.binding t.registry t.phase phase b) :
    Standing b registries library d (late i) t.registry phase := by
  have hstanding := h.standing i t ht
  have hmem := h.registry_mem ht
  obtain ⟨r, phase₀⟩ := t
  have hlate (hres : p.binding.resolved = none) : ¬ late i := fun hi => h.resolved_of_late i hi hres
  cases hturn with
  | refuse e hrequire =>
    rw [h.library_eq] at hrequire
    exact .inl (Registry.bind_of_error hrequire d).symm
  | require l hrequire => rwa [h.library_eq] at hrequire
  | read l cached q hres =>
    obtain ⟨hbind, r', hr', hrequire'⟩ := h.resolved cached q hres
    refine .inl ?_
    rw [h.declaration_eq, Registry.bind_of_ok hstanding d]
    split
    -- the kept library bears the number of the call's own, so it is that one
    next hid =>
      rw [← hagree r' hr' r hmem cached l hrequire' hstanding hid]
      exact hbind.symm
    next => rfl
  | fail l e hres hbind =>
    rw [h.declaration_eq] at hbind
    exact .inl ((Registry.bind_of_ok hstanding d).trans hbind).symm
  | bind l q hres hbind =>
    rw [h.declaration_eq] at hbind
    exact ⟨hlate hres, hstanding, hbind⟩
  | lose l cached q kept hres =>
    obtain ⟨hnot, hrequire, hbind⟩ := hstanding
    obtain ⟨hbind', r', hr', hrequire'⟩ := h.resolved cached kept hres
    exact .inr ⟨hnot, ⟨q, (Registry.bind_of_ok hrequire d).trans hbind⟩,
      r', hr', cached, kept, hrequire', hbind', hres, rfl⟩
  | keep l q hres =>
    obtain ⟨-, hrequire, hbind⟩ := hstanding
    exact .inl ((Registry.bind_of_ok hrequire d).trans hbind).symm

theorem Sound.standing_move (h : p.Sound registries library d late)
    (hagree : Agree registries library) {i : Nat} {t : Thread} (ht : p.threads[i]? = some t)
    {phase : Phase} {b : Binding} (hturn : Turn p.binding t.registry t.phase phase b)
    (hothers : ∀ j t₀, p.threads[j]? = some t₀ →
      Standing b registries library d (late j) t₀.registry t₀.phase) (j : Nat) (t' : Thread)
    (ht' : (({ p with binding := b } : Pool).move i phase).threads[j]? = some t') :
    Standing b registries library d (late j) t'.registry t'.phase := by
  rw [getElem?_threads_move] at ht'
  obtain ⟨t₀, ht₀, rfl⟩ := Option.map_eq_some_iff.mp ht'
  split
  next hij =>
    subst hij
    cases ht.symm.trans ht₀
    exact h.standing_turn hagree ht hturn
  next => exact hothers j t₀ ht₀

/-- What a turn makes of the binding: nothing, or it keeps the function of a call. -/
theorem Turn.binding_cases {b b' : Binding} {r : Registry} {phase phase' : Phase}
    (h : Turn b r phase phase' b') : b' = b ∨ b.resolved = none ∧
      ∃ l q, phase = .bound l q ∧ b' = { b with resolved := some (l, q) } := by
  cases h with
  | keep l q hres => exact .inr ⟨hres, l, q, rfl, rfl⟩
  | _ => exact .inl rfl

theorem Sound.step (h : p.Sound registries library d late) (hagree : Agree registries library)
    (i : Nat) : (p.step i).Sound registries library d late := by
  rcases p.step_cases i with hstep | ⟨t, phase, b, ht, hturn, hstep⟩ <;> rw [hstep]
  · exact h
  have hregistries := (registries_move { p with binding := b } i phase).trans h.registries_eq
  rcases hturn.binding_cases with rfl | ⟨hnone, l, q, hphase, rfl⟩
  · exact ⟨hregistries, h.library_eq, h.declaration_eq, h.resolved, h.resolved_of_late,
      h.standing_move hagree ht hturn h.standing⟩
  · refine ⟨hregistries, h.library_eq, h.declaration_eq, ?_, fun _ _ => nofun,
      h.standing_move hagree ht hturn fun j t₀ ht₀ => (h.standing j t₀ ht₀).of_none hnone _⟩
    rintro l' q' hres
    cases hres
    have hbound := h.standing i t ht
    rw [hphase] at hbound
    exact ⟨hbound.2.2, t.registry, h.registry_mem ht, hbound.2.1⟩

theorem Sound.run (h : p.Sound registries library d late) (hagree : Agree registries library)
    (schedule : List Nat) : (p.run schedule).Sound registries library d late := by
  induction schedule generalizing p with
  | nil => exact h
  | cons i schedule ih => exact ih (h.step hagree i)

theorem sound_start (registries : List Registry) (library : String) (d : Declaration) :
    (start (.ofDeclaration library d) registries).Sound registries library d fun _ => False := by
  refine ⟨?_, rfl, rfl, nofun, fun _ => False.elim, fun i t ht => ?_⟩
  · rw [start, List.map_map]
    exact List.map_id _
  · rw [start, List.getElem?_map] at ht
    obtain ⟨r, -, rfl⟩ := Option.map_eq_some_iff.mp ht
    trivial

/-- Once the binding is resolved a call that has not begun is late. -/
theorem Sound.of_start (h : p.Sound registries library d fun _ => False) {i : Nat} {r : Registry}
    (hthread : p.threads[i]? = some ⟨r, .start⟩) (hres : p.binding.isResolved = true) :
    p.Sound registries library d (· = i) := by
  refine ⟨h.registries_eq, h.library_eq, h.declaration_eq, h.resolved, ?_, fun j t ht => ?_⟩
  · rintro - - hnone
    rw [isResolved, hnone] at hres
    cases hres
  · by_cases hj : j = i
    · subst hj
      cases hthread.symm.trans ht
      trivial
    · rw [eq_false hj]
      exact h.standing j t ht

theorem Sound.reply (h : p.Sound registries library d late) {i : Nat} {r : Registry}
    {reply : Except LinkError Pointer} (hr : registries[i]? = some r)
    (hreply : p.reply? i = some reply) :
    reply = r.bind library d ∨ ¬ late i ∧ Outrun p.binding registries library d r reply := by
  rw [reply?] at hreply
  split at hreply
  next r' reply' ht =>
    cases hreply
    have hregistry : some r' = some r := by
      rw [← hr, ← h.registries_eq, List.getElem?_map, ht]
      rfl
    cases hregistry
    exact h.standing i _ ht
  next => cases hreply

theorem agree_of_identified {x : JniLink.Session} (h : x.Identified)
    (hmem : ∀ r ∈ registries, r ∈ x.registries) (library : String) :
    Agree registries library := by
  intro r hr r' hr' l l' hrequire hrequire' hid
  exact h.eq_of_id l l' (x.holds_of_require (hmem r hr) hrequire)
    (x.holds_of_require (hmem r' hr') hrequire') hid

/-- A call that is done answers what a fresh look-up in its registry does, unless it was outrun,
which cannot happen to a call that began when the binding was resolved. -/
theorem run_reply {loaders : List Loader} {s : System} {actions : List JniLink.Session.Action}
    {registries : List Registry}
    (hmem : ∀ r ∈ registries, r ∈ ((JniLink.Session.start loaders s).run actions).registries)
    {library : String} {d : Declaration} {schedule schedule' : List Nat} {p p' : Pool}
    (hp : (start (.ofDeclaration library d) registries).run schedule = p)
    (hp' : p.run schedule' = p') {i : Nat} {r : Registry} (hr : registries[i]? = some r)
    {reply : Except LinkError Pointer} (hreply : p'.reply? i = some reply) :
    (reply = r.bind library d ∨ Outrun p'.binding registries library d r reply) ∧
      (p.binding.isResolved = true → p.threads[i]? = some ⟨r, .start⟩ →
        reply = r.bind library d) := by
  subst hp hp'
  have hagree : Agree registries library :=
    agree_of_identified ((JniLink.Session.identified_start loaders s).run actions) hmem library
  have hsound := (sound_start registries library d).run hagree schedule
  constructor
  · exact ((hsound.run hagree schedule').reply hr hreply).imp_right And.right
  · intro hres hthread
    rcases ((hsound.of_start hthread hres).run hagree schedule').reply hr hreply with
      hown | ⟨hlate, -⟩
    · exact hown
    · exact absurd rfl hlate

/-- Two registries hold different libraries under one name. The call in the second one begins when
that in the first one is done, and binds the declaration in its own library. -/
theorem run_reply_late :
    let image (answer : UInt8) : Image := ⟨[("f", some [answer])]⟩
    let s : System := { (default : System) with
      files := ⟨[(["a"], .directory), (["a", "libx.so"], .file (.image (image 0x61))),
        (["b"], .directory), (["b", "libx.so"], .file (.image (image 0x62)))]⟩ }
    let d : Declaration := .ofExport "f" ⟨[], .object "java/lang/String"⟩
    let x := (JniLink.Session.start [⟨[⟨"a"⟩]⟩, ⟨[⟨"b"⟩]⟩] s).run
      [.load 0 (.bare "x"), .load 1 (.bare "x")]
    let p := (start (.ofDeclaration "x" d) x.registries).run [0, 0, 0]
    ∃ r, x.registries[1]? = some r ∧ p.binding.isResolved = true ∧
      p.threads[1]? = some ⟨r, .start⟩ ∧
      (p.run [1, 1]).reply? 1 = some (.ok ⟨1, "f", some [0x62]⟩) ∧
      r.bind "x" d = .ok ⟨1, "f", some [0x62]⟩ := by
  intro image s d x p
  have hreply : (p.run [1, 1]).reply? 1 = some (.ok ⟨1, "f", some [0x62]⟩) := by decide +kernel
  have hresolved : p.binding.isResolved = true := by decide +kernel
  obtain ⟨r, hr⟩ : ∃ r, x.registries[1]? = some r := ⟨_, rfl⟩
  have hthread : p.threads[1]? = some ⟨r, .start⟩ := by
    have hsame : p.threads[1]? = x.registries[1]?.map fun r => ⟨r, .start⟩ := by decide +kernel
    rw [hsame, hr]
    rfl
  exact ⟨r, hr, hresolved, hthread, hreply,
    ((run_reply (fun _ h => h) rfl rfl hr hreply).2 hresolved hthread).symm⟩

/-- Both calls find nothing kept. The one in the first registry is faster, so the one in the second
registry answers a function of a library that its registry does not hold. -/
theorem run_reply_other_library :
    let image (answer : UInt8) : Image := ⟨[("f", some [answer])]⟩
    let s : System := { (default : System) with
      files := ⟨[(["a"], .directory), (["a", "libx.so"], .file (.image (image 0x61))),
        (["b"], .directory), (["b", "libx.so"], .file (.image (image 0x62)))]⟩ }
    let d : Declaration := .ofExport "f" ⟨[], .object "java/lang/String"⟩
    let x := (JniLink.Session.start [⟨[⟨"a"⟩]⟩, ⟨[⟨"b"⟩]⟩] s).run
      [.load 0 (.bare "x"), .load 1 (.bare "x")]
    let p := (start (.ofDeclaration "x" d) x.registries).run [0, 1, 0, 1, 0, 1]
    (x.registries.map fun r => r.bind "x" d) =
        [.ok ⟨0, "f", some [0x61]⟩, .ok ⟨1, "f", some [0x62]⟩] ∧
      p.reply? 0 = some (.ok ⟨0, "f", some [0x61]⟩) ∧
      p.reply? 1 = some (.ok ⟨0, "f", some [0x61]⟩) := by
  decide +kernel

end JniLink.Binding.Pool
