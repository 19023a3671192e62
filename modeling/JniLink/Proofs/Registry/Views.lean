import JniLink.Proofs.Lookup
import JniLink.Proofs.Registry.Interleaving
import JniLink.Proofs.Registry.Loading

/-!
# A loaded library is found under its own name

The key under which a load keeps a library is the name that the library bears, so whoever holds a
library finds it in its registry under that name, at once and ever after. And the ways to ask what is
loaded agree: the list of names, the look-up that answers an error, the one that answers nothing, and
the plain question.

All of it is said for a registry that any number of threads use at once, over every schedule. One
caller that does one thing after the other is a schedule like any other.
-/

namespace JniLink

open JniLink.Text

/-! ## Names and keys -/

theorem Library.name_of_openAt {s : System} {name : String} {path : Path} {searched : Bool}
    {l : Library} (h : Library.openAt s name path searched = .ok l) : l.name = name := by
  obtain ⟨_, _, _, _, -, -, -, rfl⟩ := Library.of_openAt h
  rfl

/-- A library bears the key of the request by which it was opened as its name. -/
theorem Request.name_of_run {q : Request} {loader : Loader} {s : System} {l : Library}
    (h : q.run loader s = .ok l) : l.name = q.key := by
  obtain ⟨_, _, hopen⟩ := exists_openAt_of_run h
  exact Library.name_of_openAt hopen

namespace Registry

/-! ## The views of one registry -/

theorem get?_eq_some_iff {r : Registry} {key : String} {l : Library} :
    r.get? key = some l ↔ r.require key = .ok l := by
  unfold get?
  cases r.require key <;> simp

theorem isLoaded_iff {r : Registry} {key : String} :
    r.isLoaded key = true ↔ ∃ l, r.require key = .ok l := by
  simp only [isLoaded, Option.isSome_iff_exists, get?_eq_some_iff]

theorem mem_loaded_iff {r : Registry} (h : (r.outcomes.map (·.1)).Nodup) {key : String} :
    key ∈ r.loaded ↔ ∃ l, r.require key = .ok l := by
  simp only [loaded, mem_ascending, require_eq_ok_iff, find?, find?_key_eq_some_iff h, List.mem_map,
    List.mem_filter]
  constructor
  · rintro ⟨⟨_, o⟩, ⟨hmem, hok⟩, rfl⟩
    cases o with
    | error e => cases hok
    | ok l => exact ⟨l, hmem⟩
  · rintro ⟨l, hmem⟩
    exact ⟨_, ⟨hmem, rfl⟩, rfl⟩

namespace Pool

/-! ## Every key has one cell -/

theorem keys_setCell (p : Pool) (key : String) (c : Cell) :
    (p.setCell key c).cells.map (·.1) = p.cells.map (·.1) := by
  rw [setCell, List.map_map]
  refine List.map_congr_left fun entry _ => ?_
  by_cases h : entry.1 = key <;> simp [h]

theorem nodup_ensureCell {p : Pool} (h : (p.cells.map (·.1)).Nodup) (key : String) :
    ((p.ensureCell key).cells.map (·.1)).Nodup := by
  unfold ensureCell
  split
  next => exact h
  next hnone =>
    rw [cell?, Option.map_eq_none_iff, List.find?_eq_none] at hnone
    rw [List.map_append, List.map_singleton, List.nodup_append]
    refine ⟨h, List.pairwise_singleton _ key, ?_⟩
    rintro _ hkey _ hother rfl
    obtain ⟨entry, hmem, rfl⟩ := List.mem_map.mp hkey
    exact hnone entry hmem (by simpa using hother)

/-- A call leaves every key its one cell: only a fetch makes a cell, and only where there is none. -/
theorem Advance.nodup {p p' : Pool} {i : Nat} {call : Call} {phase phase' : Phase}
    (h : Advance p i call phase phase' p') (hp : (p.cells.map (·.1)).Nodup) :
    (p'.cells.map (·.1)).Nodup := by
  cases h with
  | fetch q => exact nodup_ensureCell hp q.key
  | claim | publish => rwa [keys_setCell]
  | read | run | find | look | add => exact hp

theorem nodup_handle {p : Pool} (h : (p.cells.map (·.1)).Nodup) (e : Event) :
    ((p.handle e).cells.map (·.1)).Nodup := by
  cases e with
  | change files => exact h
  | step i =>
    rw [handle]
    rcases p.step_cases i with ⟨_, _, _, _, -, hadvance, hstep⟩ | ⟨hstep, -⟩
    · rw [hstep]
      exact hadvance.nodup h
    · rwa [hstep]

theorem nodup_run {p : Pool} (h : (p.cells.map (·.1)).Nodup) (es : List Event) :
    ((p.run es).cells.map (·.1)).Nodup := by
  induction es generalizing p with
  | nil => exact h
  | cons e es ih => exact ih (nodup_handle h e)

/-! ## What is left in the registry is what is published -/

theorem mem_outcomes_registry {p : Pool} {key : String} {o : Outcome} :
    (key, o) ∈ p.registry.outcomes ↔ (key, Cell.published o) ∈ p.cells := by
  rw [registry, List.mem_filterMap]
  constructor
  · rintro ⟨⟨k, c⟩, hmem, heq⟩
    cases c with
    | published o' =>
      cases heq
      exact hmem
    | empty | claimed => cases heq
  · intro hmem
    exact ⟨_, hmem, rfl⟩

theorem nodup_registry {p : Pool} (h : (p.cells.map (·.1)).Nodup) :
    (p.registry.outcomes.map (·.1)).Nodup := by
  rw [List.Nodup, List.pairwise_map] at h ⊢
  refine List.pairwise_filterMap.mpr (h.imp fun {entry entry'} hne => ?_)
  rintro ⟨key, o⟩ ho ⟨key', o'⟩ ho' rfl
  refine hne ?_
  obtain ⟨k, c⟩ := entry
  obtain ⟨k', c'⟩ := entry'
  cases c <;> cases ho
  cases c' <;> cases ho'
  rfl

theorem find?_registry {p : Pool} (h : (p.cells.map (·.1)).Nodup) (key : String) :
    p.registry.find? key = p.published? key := by
  ext o
  rw [Registry.find?, find?_key_eq_some_iff (nodup_registry h), mem_outcomes_registry,
    ← find?_key_eq_some_iff h, ← cell?, published?_eq_some_iff, known]
  cases p.cell? key <;> simp

/-! ## What the loader answers -/

theorem exists_run_of_mem_loaderAnswers {p : Pool} {key : String} {es : List Event} {o : Outcome}
    (h : o ∈ p.loaderAnswers key es) : ∃ q loader s, Request.key q = key ∧ o = q.run loader s := by
  induction es generalizing p with
  | nil => cases h
  | cons e es ih =>
    rw [loaderAnswers, List.mem_append] at h
    rcases h with h | h
    · rw [Option.mem_toList] at h
      unfold loaderAnswer? at h
      split at h
      next i =>
        split at h
        next q _ =>
          split at h
          next hkey => exact ⟨q, p.loader, p.system, hkey, (Option.some.inj h).symm⟩
          next => cases h
        next => cases h
      next => cases h
    · exact ih h

/-- What is published in a registry that had loaded nothing before bears the name of its key. -/
theorem name_of_published? {loader : Loader} {s : System} {calls : List Call} {es : List Event}
    {key : String} {l : Library}
    (h : ((start (.ofLoader loader) s calls).run es).published? key = some (.ok l)) :
    l.name = key := by
  have hsettled := (settled_start (.ofLoader loader) s calls key).run es
  have hanswers := hsettled.published _ (published?_eq_some_iff.mp h)
  have hmem : .ok l ∈ (start (.ofLoader loader) s calls).loaderAnswers key es := by
    rw [show Registry.find? (.ofLoader loader) key = none from rfl, Option.toList_none,
      List.nil_append] at hanswers
    rw [hanswers]
    exact List.mem_singleton_self _
  obtain ⟨q, loader', s', hkey, hrun⟩ := exists_run_of_mem_loaderAnswers hmem
  rw [← hkey]
  exact Request.name_of_run hrun.symm

/-! ## Found ever after -/

/-- In every state of a registry that threads use while files change: a library that a load has
answered is found under its name, now and after whatever comes next; and the names of the loaded
libraries, listed once each and in ascending order, are those under which a look-up succeeds, be it
the one that answers an error or the one that answers nothing. -/
theorem run_found_by_name (loader : Loader) (s : System) (calls : List Call)
    (es es' : List Event) :
    let p := (start (.ofLoader loader) s calls).run es
    let r := p.registry
    (∀ (i : Nat) (q : Request) (l : Library),
      p.threads[i]? = some ⟨.load q, .done (.outcome (.ok l))⟩ →
      r.require l.name = .ok l ∧ (p.run es').registry.require l.name = .ok l) ∧
    r.loaded.Pairwise (· < ·) ∧
    ∀ key, (key ∈ r.loaded ↔ ∃ l, r.require key = .ok l) ∧
      (r.isLoaded key = true ↔ ∃ l, r.require key = .ok l) ∧
      ∀ l, r.get? key = some l ↔ r.require key = .ok l := by
  intro p r
  have hstart : ((start (.ofLoader loader) s calls).cells.map (·.1)).Nodup := List.Pairwise.nil
  have hnodup : (p.cells.map (·.1)).Nodup := nodup_run hstart es
  refine ⟨fun i q l hthread => ?_, pairwise_ascending _, fun key => ?_⟩
  · have hsettled := (settled_start (.ofLoader loader) s calls q.key).run es
    have hphase : p.loadPhase? q.key i = some (.done (.outcome (.ok l))) := by
      rw [loadPhase?, hthread]
      exact if_pos rfl
    obtain ⟨o, ho, hknown⟩ := hsettled.phases i _ hphase
    cases ho
    have hpublished := published?_eq_some_iff.mpr hknown
    have hname : l.name = q.key := name_of_published? hpublished
    rw [hname, require_eq_ok_iff, require_eq_ok_iff, find?_registry hnodup,
      find?_registry (nodup_run hnodup es')]
    exact ⟨hpublished, hsettled.published_run hpublished es'⟩
  · exact ⟨mem_loaded_iff (nodup_registry hnodup), isLoaded_iff, fun l => get?_eq_some_iff⟩

end Pool

end Registry

end JniLink
