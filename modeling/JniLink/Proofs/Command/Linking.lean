import JniLink.Command.Run
import JniLink.Proofs.Library.Search

/-!
# Checking and running

`check` and `run` start from one project, open one library and bind the same methods to it, so either
succeeds exactly if the library can be opened and binds them all. They do not ask for the library in
the same way. `run` asks by the bare name. `check` takes the name for a path if there is a file of
this name, and the linker, which is given a path without a slash, looks the name up in its own table.
So the two agree if there is no such file, and if there is one, `check` is about what the linker has
under the name, which need be neither that file nor the library of `run`.

This is said of a project without a first call. With one, `run` may fail where `check` succeeds.
-/

namespace JniLink

open JniLink.Text

namespace Library

/-- Every declaration is bound to a symbol. -/
def BindsAll (l : Library) (decls : List Declaration) : Prop :=
  ∀ d ∈ decls, ∃ symbol, l.resolve d = .ok symbol

variable {l : Library} {decls : List Declaration}

theorem isOk_resolve_iff {d : Declaration} :
    (l.resolve d).isOk = true ↔ ∃ symbol, l.resolve d = .ok symbol := by
  cases l.resolve d with
  | error e => exact iff_of_false nofun nofun
  | ok symbol => exact iff_of_true rfl ⟨symbol, rfl⟩

theorem filter_checkAll_eq_nil_iff :
    (l.checkAll decls).filter (fun r => !r.2.isOk) = [] ↔ l.BindsAll decls := by
  rw [checkAll, List.filter_eq_nil_iff, List.forall_mem_map, BindsAll]
  refine forall₂_congr fun d _ => ?_
  rw [Bool.not_eq_true', Bool.not_eq_false, isOk_resolve_iff]

theorem firstUnbound?_checkAll_eq_none_iff :
    Project.firstUnbound? (l.checkAll decls) = none ↔ l.BindsAll decls := by
  induction decls with
  | nil => exact iff_of_true rfl nofun
  | cons d decls ih =>
    rw [BindsAll, List.forall_mem_cons, checkAll, List.map_cons]
    cases hresolve : l.resolve d with
    | error e => exact iff_of_false nofun fun h => nomatch h.1
    | ok symbol => exact ih.trans (and_iff_right ⟨symbol, rfl⟩).symm

end Library

namespace Project

/-! ## Projects as they are loaded -/

theorem outcomes_ofConfig (s : System) (c : Config) : (ofConfig s c).registry.outcomes = [] := by
  have hadd (dirs : List Path) (r : Registry) :
      (dirs.foldl Registry.addSearchPath r).outcomes = r.outcomes := by
    induction dirs generalizing r with
    | nil => rfl
    | cons dir dirs ih => exact ih (r.addSearchPath dir)
  exact hadd c.library.searchPaths (.ofLoader (.default s))

/-- A project is loaded with a valid configuration, and nothing was asked for yet. -/
theorem of_load {s : System} {config : Option Path} {p : Project} (h : load s config = .ok p) :
    p.config.validate = .ok () ∧ p.registry.outcomes = [] ∧ p.system = s := by
  have hconfig : ∃ c, c.validate = .ok () ∧ p = ofConfig s c := by
    unfold load at h
    split at h
    · split at h
      · cases h
      next c hload =>
        cases h
        exact ⟨c, Config.validate_of_load hload, rfl⟩
    · split at h
      · cases h
      next c hfind =>
        cases h
        exact ⟨c, Config.validate_of_find hfind, rfl⟩
  obtain ⟨c, hvalid, rfl⟩ := hconfig
  exact ⟨hvalid, outcomes_ofConfig s c, rfl⟩

variable {p p' : Project} {q : Request} {l : Library} {decls : List Declaration}

theorem config_of_loadLibrary (h : p.loadLibrary q = .ok (l, p')) : p'.config = p.config := by
  unfold loadLibrary at h
  split at h
  · cases h
  · cases h
    rfl

theorem request_of_isBare {name : String} (h : Library.IsBare name) :
    p.request name = if p.system.isFile ⟨name⟩ then .file ⟨name⟩ else .bare name := by
  have hslash : name.toList.contains '/' = false := by simpa using h.slash
  have hbackslash : name.toList.contains '\\' = false := by simpa using h.backslash
  rw [request, hslash, hbackslash, Bool.false_or, Bool.false_or]

/-- In a project where nothing was asked for yet, what is loaded is what the loader answers. -/
theorem exists_loadLibrary_iff (hfresh : p.registry.outcomes = []) (q : Request)
    (decls : List Declaration) :
    (∃ opened, p.loadLibrary q = .ok opened ∧ opened.1.BindsAll decls) ↔
      ∃ library, q.run p.registry.loader p.system = .ok library ∧ library.BindsAll decls := by
  have hnone : p.registry.find? q.key = none := by
    rw [Registry.find?, hfresh]
    rfl
  rw [← map_loadLibrary hnone]
  cases p.loadLibrary q with
  | error e =>
    constructor
    · rintro ⟨_, h, -⟩
      cases h
    · rintro ⟨_, h, -⟩
      cases h
  | ok opened => simp [Except.map]

/-! ## The exit codes -/

theorem code_reportBindings_eq_zero_iff (hdecls : p.config.declarations = .ok decls) :
    (p.reportBindings l).code = 0 ↔ l.BindsAll decls := by
  rw [← Library.filter_checkAll_eq_nil_iff, ← List.length_eq_zero_iff, reportBindings, hdecls]
  dsimp only
  split
  next hfail => exact iff_of_false nofun (Nat.ne_of_gt hfail)
  next hpass => exact iff_of_true rfl (Nat.eq_zero_of_not_pos hpass)

/-- A check succeeds if the library can be opened and binds all methods. -/
theorem code_check_eq_zero_iff (hdecls : p.config.declarations = .ok decls) (library : Option String) :
    (p.check library).code = 0 ↔
      ∃ opened, p.openLibrary (library.getD p.config.library.name) = .ok opened ∧
        opened.1.BindsAll decls := by
  rw [check]
  cases hopen : p.openLibrary (library.getD p.config.library.name) with
  | error e => exact iff_of_false nofun fun ⟨_, hok, _⟩ => nomatch hok
  | ok opened =>
    have hdecls' : opened.2.config.declarations = .ok decls := by
      rw [config_of_loadLibrary hopen, hdecls]
    simp only [Except.ok.injEq, exists_eq_left']
    exact code_reportBindings_eq_zero_iff hdecls'

/-- A run without a first call succeeds if the library of the configured name can be opened and binds
all methods. -/
theorem code_run_eq_zero_iff (hdecls : p.config.declarations = .ok decls)
    (hstartup : p.config.library.startupSymbol = none) :
    p.run.code = 0 ↔ ∃ opened, p.loadLibrary (.bare p.config.library.name) = .ok opened ∧
      opened.1.BindsAll decls := by
  rw [run]
  cases hload : p.loadLibrary (.bare p.config.library.name) with
  | error e => exact iff_of_false nofun fun ⟨_, hok, _⟩ => nomatch hok
  | ok opened =>
    obtain ⟨l, p'⟩ := opened
    have hconfig := config_of_loadLibrary hload
    simp only [Except.ok.injEq, exists_eq_left', hconfig, hdecls]
    rw [← Library.firstUnbound?_checkAll_eq_none_iff]
    cases firstUnbound? (l.checkAll decls) with
    | none =>
      rw [startup, hconfig, hstartup]
      exact iff_of_true rfl rfl
    | some found => exact iff_of_false nofun nofun

end Project

/-- Of two command lines that check and run one project without a first call, the latter succeeds if
and only if the loader of the project finds a library by the configured name and the library binds all
methods. The former agrees with it unless there is a file of that name. If there is one, the check
succeeds if and only if the linker itself finds a library by the name and it binds all methods. -/
theorem System.code_check_eq_zero_iff_run {s : System} {config : Option Path} {p : Project}
    {checkWords runWords : List String}
    (hcheck : Invocation.ofWords? checkWords = some (.command config (.check none)))
    (hrun : Invocation.ofWords? runWords = some (.command config .run))
    (hload : Project.load s config = .ok p) (hstartup : p.config.library.startupSymbol = none) :
    ∃ checked ran decls, s.execute checkWords = some checked ∧ s.execute runWords = some ran ∧
      p.config.declarations = .ok decls ∧
      (ran.code = 0 ↔ ∃ library, p.registry.loader.load s p.config.library.name = .ok library ∧
        library.BindsAll decls) ∧
      (s.isFile ⟨p.config.library.name⟩ = false → (checked.code = 0 ↔ ran.code = 0)) ∧
      (s.isFile ⟨p.config.library.name⟩ = true → (checked.code = 0 ↔
        ∃ path library, s.named? p.config.library.name = some path ∧
          Library.openAt s p.config.library.name ⟨p.config.library.name⟩ false = .ok library ∧
          library.file.place = path.place s.workingPlace ∧ library.BindsAll decls)) := by
  obtain ⟨hvalid, hfresh, rfl⟩ := Project.of_load hload
  obtain ⟨hname, decls, hdecls⟩ := Config.of_validate hvalid
  have hbare := Library.isBare_of_validateName hname
  have hran := Project.code_run_eq_zero_iff hdecls hstartup
  rw [Project.exists_loadLibrary_iff hfresh] at hran
  have hchecked := Project.code_check_eq_zero_iff hdecls none
  rw [Option.getD_none, Project.openLibrary, Project.request_of_isBare hbare,
    Project.exists_loadLibrary_iff hfresh] at hchecked
  refine ⟨p.check none, p.run, decls, ?_, ?_, hdecls, hran, fun hfile => ?_, fun hfile => ?_⟩
  · simp only [System.execute, hcheck, System.perform, hload, Project.perform]
  · simp only [System.execute, hrun, System.perform, hload, Project.perform]
  · rw [hchecked, hran, hfile]
    rfl
  · rw [hchecked, if_pos hfile]
    constructor
    · rintro ⟨library, hopen, hbinds⟩
      obtain ⟨path, htarget, hplace⟩ := Library.exists_target_of_openAt hfile hopen
      exact ⟨path, library, (linkTarget?_of_notMem hbare.slash).symm.trans htarget, hopen, hplace,
        hbinds⟩
    · rintro ⟨-, library, -, hopen, -, hbinds⟩
      exact ⟨library, hopen, hbinds⟩

/-- Without a configuration file the library in the working directory is found by either command. If
there is a file of the configured name, and the linker has the library under this name, `check` finds
it and `run` does not. -/
theorem System.code_check_eq_zero_iff_run_default :
    let image : Image := ⟨[("Java_com_devfigas_rustjni_sample_MainActivity_sayHello", none)]⟩
    let s : System := { (default : System) with
      files := ⟨[(["librustjni_hello.so"], .file (.image image))]⟩ }
    let s' : System := { (default : System) with
      files := ⟨[(["rustjni_hello"], .file (.bytes [])), (["lib"], .directory),
        (["lib", "rustjni_hello"], .file (.image image))]⟩
      linker := [.named "rustjni_hello" ⟨"/lib/rustjni_hello"⟩] }
    (∃ checked ran, s.execute ["check"] = some checked ∧ s.execute ["run"] = some ran ∧
      checked.code = 0 ∧ ran.code = 0) ∧
    ∃ checked ran, s'.execute ["check"] = some checked ∧ s'.execute ["run"] = some ran ∧
      checked.code = 0 ∧ ran.code = 1 := by
  intro image s s'
  have hcheck : Invocation.ofWords? ["check"] = some (.command none (.check none)) := by
    decide +kernel
  have hrun : Invocation.ofWords? ["run"] = some (.command none .run) := by decide +kernel
  have hproject (s : System) (hfind : Config.find s s.workingDirectory = .ok {}) :
      Project.load s none = .ok (Project.ofConfig s {}) := by rw [Project.load, hfind]
  constructor
  · have hload := hproject s (by decide +kernel)
    obtain ⟨checked, ran, -, hchecked, hran, -, -, hcode, -⟩ :=
      code_check_eq_zero_iff_run hcheck hrun hload rfl
    have hzero : (s.execute ["run"]).map Finish.code = some 0 := by decide +kernel
    rw [hran, Option.map_some, Option.some.injEq] at hzero
    have hfile : s.isFile ⟨"rustjni_hello"⟩ = false := by decide +kernel
    exact ⟨checked, ran, hchecked, hran, (hcode hfile).mpr hzero, hzero⟩
  · have hload := hproject s' (by decide +kernel)
    obtain ⟨checked, ran, decls, hchecked, hran, hdecls, -, -, hcode⟩ :=
      code_check_eq_zero_iff_run hcheck hrun hload rfl
    have hone : (s'.execute ["run"]).map Finish.code = some 1 := by decide +kernel
    rw [hran, Option.map_some, Option.some.injEq] at hone
    have hfile : s'.isFile ⟨"rustjni_hello"⟩ = true := by decide +kernel
    have hnamed : s'.named? "rustjni_hello" = some ⟨"/lib/rustjni_hello"⟩ := by decide +kernel
    let found : Library := ⟨0, "rustjni_hello", ⟨"rustjni_hello"⟩,
      ⟨["lib", "rustjni_hello"], ⟨"/lib/rustjni_hello"⟩⟩, image, none⟩
    have hopen : Library.openAt s' "rustjni_hello" ⟨"rustjni_hello"⟩ false = .ok found := by
      decide +kernel
    have hplace : found.file.place = Path.place s'.workingPlace ⟨"/lib/rustjni_hello"⟩ := by
      decide +kernel
    have hbinds : ((Project.ofConfig s' {}).config.declarations.map fun decls =>
        (Project.firstUnbound? (found.checkAll decls)).isNone) = .ok true := by decide +kernel
    rw [hdecls, Except.map, Except.ok.injEq, Option.isNone_iff_eq_none,
      Library.firstUnbound?_checkAll_eq_none_iff] at hbinds
    exact ⟨checked, ran, hchecked, hran,
      (hcode hfile).mpr ⟨⟨"/lib/rustjni_hello"⟩, found, hnamed, hopen, hplace, hbinds⟩, hone⟩

/-- A file with the bare name of the library keeps `check` from finding the library. -/
theorem System.code_check_ne_code_run :
    let document := "[library]\nname='calc'\n[jni]\nhost='a.Calc'\n" ++
      "methods=[\x7bname='add',descriptor='(II)I'\x7d]\n"
    let s : System := { (default : System) with
      files := ⟨[(["rustjni.toml"], .file (.bytes document.toUTF8.data.toList)),
        (["libcalc.so"], .file (.image ⟨[("Java_a_Calc_add", none)]⟩)),
        (["calc"], .file (.bytes "notes\n".toUTF8.data.toList))]⟩ }
    (Project.load s none).map (·.config.library.startupSymbol) = .ok none ∧
      (s.execute ["check"]).map Finish.code = some 1 ∧
      (s.execute ["run"]).map Finish.code = some 0 := by
  decide +kernel

end JniLink
