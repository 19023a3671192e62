import JniLink.Proofs.Library.Search
import JniLink.Proofs.Session.FirstRequest

/-!
# Where the libraries of a session come from

A directory that is added is searched before all that were there, so the directories of a registry
stand in it the newest first, and behind them those that it began with. A library is looked for once,
when it is asked for the first time: it comes from the first of these directories that has its file at
that moment, and directories and files that come later change nothing (`path_of_first_load`).
-/

namespace JniLink

/-- What a registry has answered, it answers as long as it is in use. -/
theorem Registry.Extends.answer_eq {r r' : Registry} {s : System} {q : Request} {added : List Path}
    {o : Outcome} (h : r'.Extends (r.load s q).2.1 added) (ho : (r.load s q).1 = o) :
    (∀ s', (r'.load s' q).1 = o) ∧ r'.require q.key = o := by
  have hfind : r'.find? q.key = some o :=
    h.keeps q.key o ((r.find?_load_self s q).trans (congrArg some ho))
  refine ⟨fun s' => ?_, ?_⟩
  · rw [Registry.load_fst, hfind, Option.getD_some]
  · rw [Registry.require, hfind, Option.getD_some]

namespace Session

/-- The registry at a place after some actions: the loader that it was made with, and in front of its
directories those that were added; under a key that was not asked for, it has nothing. -/
theorem registry_run {loaders : List Loader} {s : System} {i : Nat} {loader : Loader}
    (h : loaders[i]? = some loader) (actions : List Action) :
    ∃ r, ((start loaders s).run actions).registries[i]? = some r ∧
      r.loader.searchPaths = added i actions ++ loader.searchPaths ∧
      ∀ key, firstRequest? i key actions = none → r.find? key = none := by
  have hstart : (start loaders s).registries[i]? = some (.ofLoader loader) := by
    rw [start, List.getElem?_map, h, Option.map_some]
  obtain ⟨r, hr, hextends⟩ := exists_extends_run hstart actions
  refine ⟨r, hr, hextends.searchPaths, fun key hnone => ?_⟩
  have hrel := (remembersAll_start loaders s).run actions i r hr key
  rw [List.nil_append, hnone] at hrel
  generalize r.find? key = found at hrel ⊢
  cases hrel
  rfl

/-- The first load of a name that finds a file in some directory answers a library whose path is in
the directory that was added last among those that have the file then; the directories of the start
count as older than any that was added, in their order. Every later load and look-up of the name
answers this library, whatever was done in between. -/
theorem path_of_first_load {loaders : List Loader} {s : System} {i : Nat} {loader : Loader}
    (hloader : loaders[i]? = some loader) {name : String} {before : List Action}
    (hfirst : firstRequest? i name before = none) :
    let x := (start loaders s).run before
    let dirs := added i before ++ loader.searchPaths
    ∃ r, x.registries[i]? = some r ∧ r.loader.searchPaths = dirs ∧
      ∀ l, (r.loadLibrary x.system name).1 = .ok l →
        (∃ dir ∈ dirs, x.system.isFile (dir / Library.fileName name) = true) →
        (∃ dir, Loader.IsFirst x.system name dirs dir ∧ l.path = dir / Library.fileName name) ∧
        ∀ after, ∃ r', (x.run (.load i (.bare name) :: after)).registries[i]? = some r' ∧
          (∀ s', (r'.loadLibrary s' name).1 = .ok l) ∧ r'.require name = .ok l := by
  intro x dirs
  obtain ⟨r, hr, hdirs, hnone⟩ := registry_run (s := s) hloader before
  refine ⟨r, hr, hdirs, fun l hl hfile => ⟨?_, fun after => ?_⟩⟩
  · obtain ⟨dir, hisFirst⟩ := Loader.exists_isFirst hfile
    have hload : r.loader.load x.system name = .ok l := by
      rwa [Registry.loadLibrary, Registry.load_of_find?_eq_none (hnone name hfirst)] at hl
    refine ⟨dir, hisFirst, Loader.path_of_load hload ?_⟩
    rwa [hdirs]
  · have hact : (x.act (.load i (.bare name))).registries[i]? =
        some (r.load x.system (.bare name)).2.1 := by
      rw [getElem?_registries_act, hr, Option.map_some, Action.resultAt, if_pos rfl]
    obtain ⟨r', hr', hextends⟩ := exists_extends_run hact after
    exact ⟨r', hr', hextends.answer_eq hl⟩

/-- The file is in `a` from the start and is put into `b` before the load; `c` has it later only, and
`d` is added later. -/
theorem path_of_first_load_later_directories :
    let image : Image := ⟨[("f", some [104, 105])]⟩
    let old : List (Place × Node) :=
      [(["a"], .directory), (["a", "libx.so"], .file (.image image)), (["b"], .directory)]
    let new := (["b", "libx.so"], Node.file (.image image)) :: old
    let newest := (["c"], .directory) :: (["c", "libx.so"], .file (.image image)) :: new
    let loaders : List Loader := [⟨[⟨"a"⟩]⟩]
    let s : System := { (default : System) with files := ⟨old⟩ }
    let before : List Action := [.addSearchPath 0 ⟨"b"⟩, .addSearchPath 0 ⟨"c"⟩, .change ⟨new⟩]
    let after : List Action := [.addSearchPath 0 ⟨"d"⟩, .change ⟨newest⟩]
    let library : Library :=
      ⟨0, "x", ⟨"b/libx.so"⟩, ⟨["b", "libx.so"], ⟨"b/libx.so"⟩⟩, image, none⟩
    let x := (start loaders s).run before
    (∃ dir, Loader.IsFirst x.system "x" [⟨"c"⟩, ⟨"b"⟩, ⟨"a"⟩] dir ∧ library.path = dir / "libx.so") ∧
      ∃ r', (x.run (.load 0 (.bare "x") :: after)).registries[0]? = some r' ∧
        r'.loader.searchPaths = [⟨"d"⟩, ⟨"c"⟩, ⟨"b"⟩, ⟨"a"⟩] ∧ r'.require "x" = .ok library := by
  intro image old new newest loaders s before after library x
  have hfirst : firstRequest? 0 "x" before = none := by decide +kernel
  have hfile : x.system.isFile (Path.mk "a" / Library.fileName "x") = true := by decide +kernel
  obtain ⟨r, hr, -, hload⟩ := path_of_first_load (s := s) (show loaders[0]? = some _ from rfl) hfirst
  obtain rfl : (⟨⟨[⟨"c"⟩, ⟨"b"⟩, ⟨"a"⟩]⟩, []⟩ : Registry) = r := Option.some.inj hr
  have hlibrary : (Registry.loadLibrary ⟨⟨[⟨"c"⟩, ⟨"b"⟩, ⟨"a"⟩]⟩, []⟩ x.system "x").1 =
      .ok library := by
    decide +kernel
  obtain ⟨hpath, hlater⟩ := hload library hlibrary ⟨⟨"a"⟩, by decide, hfile⟩
  obtain ⟨r', hr', -, hrequire⟩ := hlater after
  refine ⟨hpath, r', hr', ?_, hrequire⟩
  obtain rfl := Option.some.inj hr'
  rfl

end Session

end JniLink
