import JniLink.Proofs.Session.Step

/-!
# Libraries are told apart by their number

Over a whole session no two libraries that some registry holds have the same number, be it in one
registry or in two: an opened library takes the count of those opened before, and the count only
grows. So comparing the numbers of two libraries is comparing the libraries.
-/

namespace JniLink.Session

/-- Some registry of the session has loaded this library. -/
def Holds (x : Session) (l : Library) : Prop :=
  ∃ r ∈ x.registries, ∃ key, r.find? key = some (.ok l)

/-- The number of a library is below the count of opened ones and belongs to it alone. -/
structure Identified (x : Session) : Prop where
  id_lt : ∀ l, x.Holds l → l.id < x.system.opened
  eq_of_id : ∀ l l', x.Holds l → x.Holds l' → l.id = l'.id → l = l'

theorem holds_of_require (x : Session) {r : Registry} (hr : r ∈ x.registries) {key : String}
    {l : Library} (h : r.require key = .ok l) : x.Holds l :=
  ⟨r, hr, key, Registry.require_eq_ok_iff.mp h⟩

/-- A registry keeps the libraries that it holds. -/
theorem Holds.act {x : Session} {l : Library} (h : x.Holds l) (a : Action) : (x.act a).Holds l := by
  obtain ⟨r, hmem, key, hfind⟩ := h
  obtain ⟨i, hi⟩ := List.mem_iff_getElem?.mp hmem
  have hact : (x.act a).registries[i]? = some (a.resultAt i x.system r) := by
    rw [getElem?_registries_act, hi, Option.map_some]
  exact ⟨_, List.mem_of_getElem? hact, key,
    (a.resultAt_extends i x.system r).keeps key (.ok l) hfind⟩

theorem opened_le_act (x : Session) (a : Action) : x.system.opened ≤ (x.act a).system.opened := by
  cases a with
  | change | addSearchPath => exact Nat.le_refl _
  | load i q =>
    cases hi : x.registries[i]? with
    | none => simp only [act_load_of_none hi, Nat.le_refl]
    | some r =>
      rw [act_load hi]
      exact r.opened_le_load x.system q

/-- A library that is held after an action was held before, or it is the one that the action has
opened, whose number is used up with that. -/
theorem exists_opened (x : Session) (a : Action) : ∃ answer : Option Outcome,
    ∀ l, (x.act a).Holds l → x.Holds l ∨ answer = some (.ok l) ∧
      l.id = x.system.opened ∧ (x.act a).system.opened = x.system.opened + 1 := by
  cases a with
  | change files => exact ⟨none, fun l hl => .inl hl⟩
  | addSearchPath j dir =>
    refine ⟨none, ?_⟩
    rintro l ⟨r', hr', key, hfind⟩
    obtain ⟨i, hi⟩ := List.mem_iff_getElem?.mp hr'
    rw [getElem?_registries_act] at hi
    obtain ⟨r, hr, rfl⟩ := Option.map_eq_some_iff.mp hi
    refine .inl ⟨r, List.mem_of_getElem? hr, key, ?_⟩
    rw [Action.resultAt] at hfind
    split at hfind <;> exact hfind
  | load i q =>
    cases hi : x.registries[i]? with
    | none =>
      rw [act_load_of_none hi]
      exact ⟨none, fun l hl => .inl hl⟩
    | some r =>
      rw [act_load hi]
      refine ⟨some (r.load x.system q).1, ?_⟩
      rintro l ⟨r', hr', key, hfind⟩
      rcases List.mem_or_eq_of_mem_set hr' with hr' | rfl
      · exact .inl ⟨r', hr', key, hfind⟩
      · rcases Registry.of_find?_load hfind with hbefore | ⟨hanswer, hnew⟩
        · exact .inl ⟨r, List.mem_of_getElem? hi, key, hbefore⟩
        · exact .inr ⟨congrArg some hanswer, hnew⟩

theorem Identified.act {x : Session} (h : x.Identified) (a : Action) : (x.act a).Identified := by
  obtain ⟨answer, hopened⟩ := exists_opened x a
  refine ⟨fun l hl => ?_, fun l l' hl hl' hid => ?_⟩
  · rcases hopened l hl with hbefore | ⟨-, hid, hcount⟩
    · exact Nat.lt_of_lt_of_le (h.id_lt l hbefore) (opened_le_act x a)
    · rw [hid, hcount]
      exact Nat.lt_succ_self _
  · rcases hopened l hl with hbefore | ⟨hl, hnew, -⟩ <;>
      rcases hopened l' hl' with hbefore' | ⟨hl', hnew', -⟩
    · exact h.eq_of_id l l' hbefore hbefore' hid
    · exact absurd (h.id_lt l hbefore) (by rw [hid, hnew']; exact Nat.lt_irrefl _)
    · exact absurd (h.id_lt l' hbefore') (by rw [← hid, hnew]; exact Nat.lt_irrefl _)
    · exact Except.ok.inj (Option.some.inj (hl.symm.trans hl'))

theorem Identified.run {x : Session} (h : x.Identified) (actions : List Action) :
    (x.run actions).Identified := by
  induction actions generalizing x with
  | nil => exact h
  | cons a actions ih => exact ih (h.act a)

theorem identified_start (loaders : List Loader) (s : System) : (start loaders s).Identified := by
  have hnone (l : Library) : ¬ (start loaders s).Holds l := by
    rintro ⟨r, hr, key, hfind⟩
    obtain ⟨loader, -, rfl⟩ := List.mem_map.mp hr
    cases hfind
  exact ⟨fun l hl => absurd hl (hnone l), fun l _ hl => absurd hl (hnone l)⟩

end JniLink.Session
