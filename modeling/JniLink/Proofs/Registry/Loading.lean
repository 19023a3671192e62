import JniLink.Proofs.Library.Opening
import JniLink.Registry.Basic

/-!
# What a load leaves behind

What is looked up after a load is what was looked up before or, if that was nothing, what the loader
answered. From the loader itself only two things are needed: a library that it opens bears the number
of those opened before, and a fault of a name is its answer exactly for a bare name that has it.
-/

namespace JniLink

/-! ## What the loader answers -/

theorem Library.id_of_openAt {s : System} {name : String} {path : Path} {searched : Bool}
    {l : Library} (h : Library.openAt s name path searched = .ok l) : l.id = s.opened := by
  obtain ⟨_, _, _, _, -, -, -, rfl⟩ := Library.of_openAt h
  rfl

theorem Library.openAt_ne_invalidName (s : System) (name : String) (path : Path) (searched : Bool)
    (name' : String) (fault : NameFault) :
    Library.openAt s name path searched ≠ .error (.invalidName name' fault) := by
  intro h
  unfold Library.openAt at h
  split at h
  · cases h
  · split at h
    · cases h
    · split at h <;> cases h

theorem Library.eq_invalidName_of_validateName {name : String} {e : LinkError}
    (h : Library.validateName name = .error e) : ∃ fault, e = .invalidName name fault := by
  unfold Library.validateName at h
  split at h
  next fault _ =>
    cases h
    exact ⟨fault, rfl⟩
  next => cases h

namespace Request

/-- Whatever way a library is asked for, it is opened under the key of the request. -/
theorem exists_openAt_of_run {q : Request} {loader : Loader} {s : System} {l : Library}
    (h : q.run loader s = .ok l) : ∃ path searched, Library.openAt s q.key path searched = .ok l := by
  cases q with
  | bare name =>
    rw [run, Loader.load] at h
    split at h
    · cases h
    · exact ⟨_, _, h⟩
  | file path => exact ⟨_, _, h⟩

/-- A library that is opened bears the number of those opened before. -/
theorem id_of_run {q : Request} {loader : Loader} {s : System} {l : Library}
    (h : q.run loader s = .ok l) : l.id = s.opened := by
  obtain ⟨_, _, hopen⟩ := exists_openAt_of_run h
  exact Library.id_of_openAt hopen

/-- The loader answers a fault of a name for bare names that have it, and for nothing else. -/
theorem run_eq_invalidName_iff {q : Request} {loader : Loader} {s : System} {name : String}
    {fault : NameFault} : q.run loader s = .error (.invalidName name fault) ↔
      q = .bare name ∧ Library.validateName name = .error (.invalidName name fault) := by
  cases q with
  | bare name' =>
    rw [run, Loader.load]
    split
    next e hname =>
      obtain ⟨fault', rfl⟩ := Library.eq_invalidName_of_validateName hname
      constructor
      · intro h
        cases h
        exact ⟨rfl, hname⟩
      · rintro ⟨heq, hfault⟩
        cases heq
        rw [hname] at hfault
        cases hfault
        rfl
    next hname =>
      constructor
      · intro h
        exact absurd h (Library.openAt_ne_invalidName _ _ _ _ _ _)
      · rintro ⟨heq, hfault⟩
        cases heq
        rw [hname] at hfault
        cases hfault
  | file path =>
    constructor
    · intro h
      exact absurd h (Library.openAt_ne_invalidName _ _ _ _ _ _)
    · rintro ⟨heq, -⟩
      cases heq

end Request

namespace Registry

/-! ## What is looked up -/

theorem find?_publish (r : Registry) (k key : String) (o : Outcome) :
    (r.publish k o).find? key = (r.find? key).or (if k = key then some o else none) := by
  simp only [find?, publish, List.find?_append, List.find?_cons, List.find?_nil, Option.map_or]
  by_cases h : k = key <;> simp [h]

theorem load_of_find?_eq_some {r : Registry} {q : Request} {o : Outcome}
    (h : r.find? q.key = some o) (s : System) : r.load s q = (o, r, s) := by
  rw [load, h]

theorem load_of_find?_eq_none {r : Registry} {q : Request} (h : r.find? q.key = none)
    (s : System) : r.load s q =
      (q.run r.loader s, r.publish q.key (q.run r.loader s), s.settle (q.run r.loader s)) := by
  rw [load, h]

/-- A load answers what was found under its key, or else what the loader answers. -/
theorem load_fst (r : Registry) (s : System) (q : Request) :
    (r.load s q).1 = (r.find? q.key).getD (q.run r.loader s) := by
  cases h : r.find? q.key with
  | some o => rw [load_of_find?_eq_some h]; rfl
  | none => rw [load_of_find?_eq_none h]; rfl

/-- A load changes what is found under no key where something was found, and under no other key. -/
theorem find?_load (r : Registry) (s : System) (q : Request) (key : String) :
    (r.load s q).2.1.find? key =
      (r.find? key).or (if q.key = key then some (q.run r.loader s) else none) := by
  cases h : r.find? q.key with
  | some o =>
    rw [load_of_find?_eq_some h]
    split
    next hkey => rw [← hkey, h, Option.some_or]
    next => rw [Option.or_none]
  | none => rw [load_of_find?_eq_none h, find?_publish]

/-- What a load answers is what is found under its key afterwards. -/
theorem find?_load_self (r : Registry) (s : System) (q : Request) :
    (r.load s q).2.1.find? q.key = some (r.load s q).1 := by
  rw [find?_load, load_fst, if_pos rfl]
  cases r.find? q.key <;> rfl

theorem require_eq_ok_iff {r : Registry} {key : String} {l : Library} :
    r.require key = .ok l ↔ r.find? key = some (.ok l) := by
  unfold require
  cases r.find? key <;> simp

end Registry

/-! ## The count of opened libraries -/

theorem System.opened_settle (s : System) (o : Except LinkError Library) :
    (s.settle o).opened = s.opened + 1 := by
  cases o <;> rfl

namespace Registry

theorem opened_le_load (r : Registry) (s : System) (q : Request) :
    s.opened ≤ (r.load s q).2.2.opened := by
  cases h : r.find? q.key with
  | some o => simp only [load_of_find?_eq_some h, Nat.le_refl]
  | none =>
    rw [load_of_find?_eq_none h, System.opened_settle]
    exact Nat.le_succ _

/-- A library that is found after a load was found before, or it is the one that the load has
opened, whose number is used up with that. -/
theorem of_find?_load {r : Registry} {s : System} {q : Request} {key : String} {l : Library}
    (h : (r.load s q).2.1.find? key = some (.ok l)) :
    r.find? key = some (.ok l) ∨
      (r.load s q).1 = .ok l ∧ l.id = s.opened ∧ (r.load s q).2.2.opened = s.opened + 1 := by
  cases hfind : r.find? q.key with
  | some o =>
    rw [load_of_find?_eq_some hfind] at h
    exact .inl h
  | none =>
    rw [find?_load] at h
    cases hkey : r.find? key with
    | some o =>
      rw [hkey, Option.some_or] at h
      exact .inl h
    | none =>
      rw [hkey, Option.none_or] at h
      split at h
      next =>
        have hrun : q.run r.loader s = .ok l := Option.some.inj h
        refine .inr ⟨?_, Request.id_of_run hrun, ?_⟩
        · rw [load_of_find?_eq_none hfind, hrun]
        · rw [load_of_find?_eq_none hfind, System.opened_settle]
      next => cases h

end Registry

end JniLink
