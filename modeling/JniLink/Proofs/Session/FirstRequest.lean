import JniLink.Proofs.Session.Step
import Mathlib.Control.Monad.Basic

/-!
# The first request decides

In a session a registry answers every load as it answered the first one of the same key. A bare name
and a path share a key if they are the same text, so the first request for it decides for both: a
bare name that is not valid is refused as such only if no load of the path came first, and a load of
a path answers a fault of a name if the refused name came first.
-/

namespace JniLink.Session

/-- What an action asks a registry to load. -/
def Action.request? (registry : Nat) : Action → Option Request
  | .load i q => if i = registry then some q else none
  | .addSearchPath _ _ | .change _ => none

/-- The first request of a key that some actions make to a registry. -/
def firstRequest? (registry : Nat) (key : String) (actions : List Action) : Option Request :=
  (actions.filterMap (Action.request? registry)).find? (·.key = key)

theorem firstRequest?_append (i : Nat) (key : String) (actions actions' : List Action) :
    firstRequest? i key (actions ++ actions') =
      (firstRequest? i key actions).or (firstRequest? i key actions') := by
  rw [firstRequest?, List.filterMap_append, List.find?_append, firstRequest?, firstRequest?]

/-- A registry has answered these requests: under each key it has what the loader answered to the
first request of that key. -/
def Remembers (r : Registry) (registry : Nat) (done : List Action) : Prop :=
  ∀ key, Option.Rel (fun q o => ∃ loader s, o = Request.run loader s q)
    (firstRequest? registry key done) (r.find? key)

theorem rel_or {α β : Type} {R : α → β → Prop} {a a' : Option α} {b b' : Option β}
    (h : Option.Rel R a b) (h' : Option.Rel R a' b') : Option.Rel R (a.or a') (b.or b') := by
  cases h with
  | none => exact h'
  | some hab => exact .some hab

/-- An action that asks nothing of a registry leaves it what it remembers. -/
theorem Remembers.of_request?_eq_none {r r' : Registry} {i : Nat} {done : List Action}
    (h : Remembers r i done) (hfind : ∀ key, r'.find? key = r.find? key) {a : Action}
    (ha : a.request? i = none) : Remembers r' i (done ++ [a]) := by
  intro key
  have hrequest : firstRequest? i key [a] = none := by
    rw [firstRequest?, List.filterMap_cons_none ha, List.filterMap_nil, List.find?_nil]
  rw [firstRequest?_append, hrequest, Option.or_none, hfind]
  exact h key

theorem Remembers.load {r : Registry} {i : Nat} {done : List Action} (h : Remembers r i done)
    (s : System) (q : Request) : Remembers (r.load s q).2.1 i (done ++ [.load i q]) := by
  intro key
  have hrequest : (Action.load i q).request? i = some q := if_pos rfl
  rw [firstRequest?_append, Registry.find?_load]
  refine rel_or (h key) ?_
  rw [firstRequest?, List.filterMap_cons_some hrequest, List.filterMap_nil]
  by_cases hkey : q.key = key
  · rw [List.find?_cons_of_pos (by simpa using hkey), if_pos hkey]
    exact .some ⟨r.loader, s, rfl⟩
  · rw [List.find?_cons_of_neg (by simpa using hkey), List.find?_nil, if_neg hkey]
    exact .none

/-- Every registry of a session remembers the actions that were done. -/
def RemembersAll (x : Session) (done : List Action) : Prop :=
  ∀ i r, x.registries[i]? = some r → Remembers r i done

theorem RemembersAll.act {x : Session} {done : List Action} (h : x.RemembersAll done) (a : Action) :
    (x.act a).RemembersAll (done ++ [a]) := by
  intro i r' hr'
  rw [getElem?_registries_act] at hr'
  obtain ⟨r, hr, rfl⟩ := Option.map_eq_some_iff.mp hr'
  cases a with
  | change files => exact (h i r hr).of_request?_eq_none (fun _ => rfl) rfl
  | addSearchPath j dir =>
    refine (h i r hr).of_request?_eq_none (fun key => ?_) rfl
    rw [Action.resultAt]
    split <;> rfl
  | load j q =>
    by_cases hji : j = i
    · subst hji
      rw [Action.resultAt, if_pos rfl]
      exact (h j r hr).load x.system q
    · rw [Action.resultAt, if_neg hji]
      exact (h i r hr).of_request?_eq_none (fun _ => rfl) (if_neg hji)

theorem RemembersAll.run {x : Session} {done : List Action} (h : x.RemembersAll done)
    (actions : List Action) : (x.run actions).RemembersAll (done ++ actions) := by
  induction actions generalizing x done with
  | nil => rwa [List.append_nil]
  | cons a actions ih =>
    rw [List.append_cons]
    exact ih (h.act a)

theorem remembersAll_start (loaders : List Loader) (s : System) :
    (start loaders s).RemembersAll [] := by
  intro i r hr key
  rw [start, List.getElem?_map] at hr
  obtain ⟨loader, -, rfl⟩ := Option.map_eq_some_iff.mp hr
  exact .none

/-- A load answers a fault of a name if and only if the first request of its key, be it an earlier
one or the present one, was for the bare name and the name has the fault. -/
theorem load_eq_invalidName_iff {loaders : List Loader} {s : System} {actions : List Action}
    {i : Nat} {r : Registry} (hr : ((start loaders s).run actions).registries[i]? = some r)
    (q : Request) (name : String) (fault : NameFault) :
    (r.load ((start loaders s).run actions).system q).1 = .error (.invalidName name fault) ↔
      (firstRequest? i q.key actions).getD q = .bare name ∧
        Library.validateName name = .error (.invalidName name fault) := by
  have hrel := (remembersAll_start loaders s).run actions i r hr q.key
  rw [List.nil_append] at hrel
  rw [Registry.load_fst]
  generalize firstRequest? i q.key actions = first at hrel ⊢
  generalize r.find? q.key = found at hrel ⊢
  cases hrel with
  | none => exact Request.run_eq_invalidName_iff
  | some hrun =>
    obtain ⟨loader, s', rfl⟩ := hrun
    exact Request.run_eq_invalidName_iff

/-- A path is refused as a name after the same text was refused as one. -/
theorem load_eq_invalidName_iff_path :
    let x := (start [.empty] default).run [.change .empty, .load 0 (.bare "a/b")]
    ∃ r, x.registries[0]? = some r ∧
      (r.load x.system (.file ⟨"a/b"⟩)).1 = .error (.invalidName "a/b" .path) := by
  intro x
  have hvalid : Library.validateName "a/b" = .error (.invalidName "a/b" .path) := by
    decide +kernel
  have hfirst : (firstRequest? 0 "a/b" [.change .empty, .load 0 (.bare "a/b")]).getD
      (.file ⟨"a/b"⟩) = .bare "a/b" := by
    decide +kernel
  obtain ⟨r, hr⟩ : ∃ r, x.registries[0]? = some r := ⟨_, rfl⟩
  exact ⟨r, hr, (load_eq_invalidName_iff hr (.file ⟨"a/b"⟩) "a/b" .path).mpr ⟨hfirst, hvalid⟩⟩

/-- Names and paths do interfere. There is a library at the path, and a load of the path opens it;
after the same text was refused as a name the load is refused too, and after the path was loaded the
text is accepted as a name, although it is not valid. -/
theorem loads_of_one_text_interfere :
    let image : Image := ⟨[("f", some [104, 105])]⟩
    let s : System := { (default : System) with
      files := ⟨[(["libs"], .directory), (["libs", "libx.so"], .file (.image image))]⟩ }
    let path : Path := ⟨"libs/libx.so"⟩
    let library : Library := ⟨0, path.text, path, ⟨["libs", "libx.so"], path⟩, image, none⟩
    let named := (start [.empty] s).run [.load 0 (.bare path.text)]
    let opened := (start [.empty] s).run [.load 0 (.file path)]
    Library.validateName path.text = .error (.invalidName path.text .path) ∧
      Loader.loadPath s path = .ok library ∧
      (named.registries.map fun r => (r.loadPath named.system path).1) =
        [.error (.invalidName path.text .path)] ∧
      (opened.registries.map fun r => (r.loadLibrary opened.system path.text).1) =
        [.ok library] := by
  decide +kernel

end JniLink.Session
