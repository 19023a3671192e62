import JniLink.Proofs.Registry.Loading
import JniLink.Session

/-!
# The registries of a session, one by one

An action reaches one registry at most, and what it does there depends on nothing but that registry
and the system (`getElem?_registries_act`). Registries only grow: new directories come in front of
those that were there, and what was loaded stays (`Registry.Extends`). Each step extends a registry,
so a whole run does.
-/

namespace JniLink

namespace Registry

/-! ## Growing registries -/

/-- A registry that came from another one: these directories were put in front of its own, the newest
first, and what was loaded in the other is loaded in it. -/
structure Extends (r' r : Registry) (added : List Path) : Prop where
  searchPaths : r'.loader.searchPaths = added ++ r.loader.searchPaths
  keeps : ∀ key o, r.find? key = some o → r'.find? key = some o

namespace Extends

variable {r r' r'' : Registry} {added added' : List Path}

protected theorem refl (r : Registry) : r.Extends r [] :=
  ⟨rfl, fun _ _ h => h⟩

protected theorem trans (h' : r''.Extends r' added') (h : r'.Extends r added) :
    r''.Extends r (added' ++ added) where
  searchPaths := by rw [h'.searchPaths, h.searchPaths, List.append_assoc]
  keeps key o hfind := h'.keeps key o (h.keeps key o hfind)

theorem addSearchPath (r : Registry) (dir : Path) : (r.addSearchPath dir).Extends r [dir] :=
  ⟨rfl, fun _ _ h => h⟩

theorem load (r : Registry) (s : System) (q : Request) : (r.load s q).2.1.Extends r [] where
  searchPaths := by
    cases h : r.find? q.key with
    | some o => rw [load_of_find?_eq_some h, List.nil_append]
    | none => rw [load_of_find?_eq_none h, List.nil_append, publish]
  keeps key o h := by rw [find?_load, h, Option.some_or]

end Extends

end Registry

namespace Session

/-! ## One action -/

/-- What an action makes of the registry at a place. -/
def Action.resultAt (i : Nat) (s : System) (r : Registry) : Action → Registry
  | .load j q => if j = i then (r.load s q).2.1 else r
  | .addSearchPath j dir => if j = i then r.addSearchPath dir else r
  | .change _ => r

/-- The directory that an action adds to the registry at a place. -/
def Action.directory? (i : Nat) : Action → Option Path
  | .addSearchPath j dir => if j = i then some dir else none
  | .load _ _ | .change _ => none

/-- After an action a registry is what the action makes of it. -/
theorem getElem?_registries_act (x : Session) (a : Action) (i : Nat) :
    (x.act a).registries[i]? = x.registries[i]?.map fun r => a.resultAt i x.system r := by
  cases a with
  | change files => exact Option.map_id'.symm
  | addSearchPath j dir => exact List.getElem?_modify _ _ _ _
  | load j q =>
    by_cases hji : j = i
    · subst hji
      cases hj : x.registries[j]? with
      | none => rw [act_load_of_none hj, hj, Option.map_none]
      | some r =>
        rw [act_load hj, List.getElem?_set_self (List.getElem?_eq_some_iff.mp hj).1,
          Option.map_some, Action.resultAt, if_pos rfl]
    · have hsame : (x.act (.load j q)).registries[i]? = x.registries[i]? := by
        cases hj : x.registries[j]? with
        | none => rw [act_load_of_none hj]
        | some r => rw [act_load hj, List.getElem?_set_ne hji]
      simp only [hsame, Action.resultAt, if_neg hji, Option.map_id']

theorem Action.resultAt_extends (a : Action) (i : Nat) (s : System) (r : Registry) :
    (a.resultAt i s r).Extends r (a.directory? i).toList := by
  cases a with
  | change files => exact .refl r
  | addSearchPath j dir =>
    rw [resultAt, directory?]
    split
    · exact .addSearchPath r dir
    · exact .refl r
  | load j q =>
    rw [resultAt]
    split
    · exact .load r s q
    · exact .refl r

/-! ## A run -/

/-- The directories that some actions add to the registry at a place, the newest first. -/
def added (i : Nat) (actions : List Action) : List Path :=
  (actions.filterMap (Action.directory? i)).reverse

theorem added_cons (i : Nat) (a : Action) (actions : List Action) :
    added i (a :: actions) = added i actions ++ (a.directory? i).toList := by
  rw [added, List.filterMap_cons]
  cases a.directory? i with
  | none => exact (List.append_nil _).symm
  | some dir => exact List.reverse_cons

/-- A run extends a registry by the directories that it adds. -/
theorem exists_extends_run {x : Session} {i : Nat} {r : Registry} (h : x.registries[i]? = some r)
    (actions : List Action) :
    ∃ r', (x.run actions).registries[i]? = some r' ∧ r'.Extends r (added i actions) := by
  induction actions generalizing x r with
  | nil => exact ⟨r, h, .refl r⟩
  | cons a actions ih =>
    have hact : (x.act a).registries[i]? = some (a.resultAt i x.system r) := by
      rw [getElem?_registries_act, h, Option.map_some]
    obtain ⟨r', hr', hextends⟩ := ih hact
    rw [added_cons]
    exact ⟨r', hr', hextends.trans (a.resultAt_extends i x.system r)⟩

end Session

end JniLink
