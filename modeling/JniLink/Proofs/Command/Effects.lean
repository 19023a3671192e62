import JniLink.Proofs.Android.Package
import JniLink.Proofs.Command.Linking

/-!
# What commands write

Four commands write files, and no other command does. Three of them write one file that the command line
names, as the last step that can fail: a file is written only if the command succeeds. `package` writes
one library for each configured target, and none unless every release build is there; an error between
two copies leaves the former one standing. Besides files, the directories above them may be made.
-/

namespace JniLink

open JniLink.Android

/-- The places that a command may write in a project with a configuration, if it ends in `f`. -/
def Command.Writes (s : System) (c : Config) (f : Finish) : Command → Place → Prop
  | .declare _ (some file), q => f.code = 0 ∧ q = file.place s.workingPlace
  | .cargoConfig output, q => f.code = 0 ∧ q = output.place s.workingPlace
  | .stub _ _ (some output), q => f.code = 0 ∧ q = output.place s.workingPlace
  | .package targetDir, q =>
    (∀ t ∈ c.android.targets, s.isFile (t.buildPath targetDir c.library.name) = true) ∧
      ∃ t ∈ c.android.targets,
        q = (t.libraryPath c.android.jniLibs c.library.name).place s.workingPlace
  | _, _ => False

/-! ## Loading libraries -/

theorem System.files_settle (s : System) (o : Except LinkError Library) :
    (s.settle o).files = s.files := by
  cases o <;> rfl

theorem System.workingPlace_settle (s : System) (o : Except LinkError Library) :
    (s.settle o).workingPlace = s.workingPlace := by
  cases o <;> rfl

namespace Project

variable {p p' : Project} {q : Request} {l : Library} {s : System} {path : Path} {text name : String}

/-- Loading a library changes no file. -/
theorem files_of_loadLibrary (h : p.loadLibrary q = .ok (l, p')) :
    p'.system.files = p.system.files ∧ p'.system.workingPlace = p.system.workingPlace := by
  unfold loadLibrary at h
  split at h
  · cases h
  next registry system hload =>
    cases h
    have hsystem : system = p.system ∨ ∃ outcome, system = p.system.settle outcome := by
      unfold Registry.load at hload
      split at hload
      · exact .inl (congrArg (·.2.2) hload).symm
      · exact .inr ⟨_, (congrArg (·.2.2) hload).symm⟩
    rcases hsystem with rfl | ⟨outcome, rfl⟩
    · exact ⟨rfl, rfl⟩
    · exact ⟨System.files_settle _ _, System.workingPlace_settle _ _⟩

theorem files_of_openLibrary (h : p.openLibrary name = .ok (l, p')) :
    p'.system.files = p.system.files ∧ p'.system.workingPlace = p.system.workingPlace :=
  files_of_loadLibrary h

/-! ## Commands that write nothing -/

theorem files_reportBindings (p : Project) (library : Library) :
    (p.reportBindings library).system.files = p.system.files := by
  unfold reportBindings
  split
  · rfl
  · dsimp only
    split <;> rfl

theorem files_check (p : Project) (library : Option String) :
    (p.check library).system.files = p.system.files := by
  unfold check
  split
  · rfl
  next hopen => exact (files_reportBindings _ _).trans (files_of_openLibrary hopen).1

theorem files_call (p : Project) (library symbol : String) :
    (p.call library symbol).system.files = p.system.files := by
  unfold call
  split
  · rfl
  next hopen =>
    split <;> exact (files_of_openLibrary hopen).1

theorem files_startup (p : Project) (library : Library) (bound : Nat) :
    (p.startup library bound).system.files = p.system.files := by
  unfold startup
  split
  · rfl
  · split <;> rfl

theorem files_run (p : Project) : p.run.system.files = p.system.files := by
  unfold run
  split
  · rfl
  next hload =>
    obtain ⟨hfiles, -⟩ := files_of_loadLibrary hload
    split
    · exact hfiles
    · split
      · exact hfiles
      · exact (files_startup _ _ _).trans hfiles

theorem files_symbol (p : Project) (owner method : String) (descriptor : Option String) :
    (p.symbol owner method descriptor).system.files = p.system.files := by
  unfold symbol
  dsimp only
  split
  · rfl
  · split <;> rfl

theorem files_demangle (p : Project) (symbol : String) :
    (p.demangle symbol).system.files = p.system.files := by
  unfold demangle
  split <;> rfl

/-! ## Commands that write one file -/

theorem writesOnly_of_writeText (h : p.writeText path text = .ok s) :
    FileTree.WritesOnly (· = path.place p.system.workingPlace) p.system.files s.files := by
  unfold writeText FileTree.writeText at h
  cases hwrite : p.system.files.write p.system.workingPlace path
      (.bytes (Text.Utf8.encode text.toList)) with
  | error fault =>
    rw [hwrite] at h
    cases h
  | ok files =>
    rw [hwrite] at h
    cases h
    exact FileTree.writesOnly_of_write hwrite

/-- A command writes at most one file, and only if it succeeds. -/
def WritesFile (p : Project) (path : Path) (f : Finish) : Prop :=
  FileTree.WritesOnly (fun q => f.code = 0 ∧ q = path.place p.system.workingPlace)
    p.system.files f.system.files

theorem writesFile_of_files {f : Finish} (h : f.system.files = p.system.files) :
    p.WritesFile path f := by
  rw [WritesFile, h]
  exact .refl

theorem writesFile_done {output : String} (h : p.writeText path text = .ok s) :
    p.WritesFile path (.done s output) :=
  (writesOnly_of_writeText h).mono fun _ hq => ⟨rfl, hq⟩

theorem writesFile_declareIn (p : Project) (decls : List Declaration) (path : Path) :
    p.WritesFile path (p.declareIn decls path) := by
  unfold declareIn
  split
  · exact writesFile_of_files rfl
  split
  · exact writesFile_of_files rfl
  split
  · exact writesFile_of_files rfl
  split
  · exact writesFile_of_files rfl
  next hwrite => exact writesFile_done hwrite

theorem writesFile_declare (p : Project) (java : Bool) (path : Path) :
    p.WritesFile path (p.declare java (some path)) := by
  unfold declare
  split
  · exact writesFile_of_files rfl
  · exact writesFile_declareIn _ _ _

theorem files_declare (p : Project) (java : Bool) :
    (p.declare java none).system.files = p.system.files := by
  unfold declare
  split <;> rfl

theorem writesFile_writeStubs (p : Project) (owner : String) (decls : List Declaration)
    (path : Path) : p.WritesFile path (p.writeStubs owner decls (some path)) := by
  unfold writeStubs
  split
  · exact writesFile_of_files rfl
  dsimp only
  split
  · exact writesFile_of_files rfl
  next hwrite => exact writesFile_done hwrite

theorem files_writeStubs (p : Project) (owner : String) (decls : List Declaration) :
    (p.writeStubs owner decls none).system.files = p.system.files := by
  unfold writeStubs
  split <;> rfl

theorem writesFile_stub (p : Project) (source : Path) (library : Option String) (path : Path) :
    p.WritesFile path (p.stub source library (some path)) := by
  unfold stub
  split
  · exact writesFile_of_files rfl
  split
  · exact writesFile_of_files rfl
  split
  · exact writesFile_of_files rfl
  split
  · exact writesFile_writeStubs _ _ _ _
  split
  · exact writesFile_of_files rfl
  next hopen =>
    obtain ⟨hfiles, hplace⟩ := files_of_openLibrary hopen
    split
    · exact writesFile_of_files hfiles
    next decls _ =>
      rw [WritesFile, ← hfiles, ← hplace]
      exact writesFile_writeStubs _ _ decls path

theorem files_stub (p : Project) (source : Path) (library : Option String) :
    (p.stub source library none).system.files = p.system.files := by
  unfold stub
  split
  · rfl
  split
  · rfl
  split
  · rfl
  split
  · exact files_writeStubs _ _ _
  split
  · rfl
  next hopen =>
    obtain ⟨hfiles, -⟩ := files_of_openLibrary hopen
    split
    · exact hfiles
    · exact (files_writeStubs _ _ _).trans hfiles

theorem writesFile_writeTools (p : Project) (bin output : Path) :
    p.WritesFile output (p.writeTools bin output) := by
  unfold writeTools
  dsimp only
  split
  · exact writesFile_of_files rfl
  split
  next hmade => exact (System.writesOnly_of_makeAbove hmade _).1
  next hmade =>
    split
    · exact (System.writesOnly_of_makeAbove hmade _).1
    next hwrite =>
      obtain ⟨hdirs, hplace⟩ := System.writesOnly_of_makeAbove hmade
        (fun q => 0 = 0 ∧ q = output.place p.system.workingPlace)
      have hwritten := writesOnly_of_writeText hwrite
      dsimp only at hwritten
      rw [hplace] at hwritten
      exact hdirs.trans (hwritten.mono fun _ hq => ⟨rfl, hq⟩)

theorem writesFile_cargoConfig (p : Project) (output : Path) :
    p.WritesFile output (p.cargoConfig output) := by
  unfold cargoConfig
  split
  · exact writesFile_of_files rfl
  · dsimp only
    split
    · exact writesFile_writeTools _ _ _
    · exact writesFile_of_files rfl

end Project

/-! ## Packaging -/

theorem Project.files_package (p : Project) (targetDir : Path) :
    (p.package targetDir).system.files =
      (Android.package p.system p.config.android.targets targetDir p.config.android.jniLibs
        p.config.library.name).2.files := by
  unfold Project.package
  split <;> next hpackage => rw [hpackage]; rfl

/-! ## Every command -/

theorem Project.writesOnly_perform (p : Project) (c : Command) :
    FileTree.WritesOnly (c.Writes p.system p.config (p.perform c)) p.system.files
      (p.perform c).system.files := by
  have hnone {written : Place → Prop} {f : Finish} (h : f.system.files = p.system.files) :
      FileTree.WritesOnly written p.system.files f.system.files := h ▸ .refl
  cases c with
  | check library => exact hnone (p.files_check library)
  | call library symbol => exact hnone (p.files_call library symbol)
  | cargoConfig output => exact p.writesFile_cargoConfig output
  | declare java file =>
    cases file with
    | none => exact hnone (p.files_declare java)
    | some path => exact p.writesFile_declare java path
  | demangle symbol => exact hnone (p.files_demangle symbol)
  | package targetDir =>
    change FileTree.WritesOnly _ _ (p.package targetDir).system.files
    rw [p.files_package]
    exact writesOnly_package _ _ _ _ _
  | run => exact hnone p.files_run
  | stub source library output =>
    cases output with
    | none => exact hnone (p.files_stub source library)
    | some path => exact p.writesFile_stub source library path
  | symbol owner method descriptor => exact hnone (p.files_symbol owner method descriptor)
  | targets => exact hnone rfl

/-- A command line writes at most the files of its command: whatever else stands in the tree stays as
it is, but for directories that are made where there was nothing. -/
theorem System.writesOnly_execute {s : System} {words : List String} {f : Finish}
    (h : s.execute words = some f) :
    FileTree.WritesOnly
      (fun q => ∃ config c p, Invocation.ofWords? words = some (.command config c) ∧
        Project.load s config = .ok p ∧ c.Writes s p.config f q)
      s.files f.system.files := by
  unfold execute at h
  split at h
  · cases h
  · cases h
    exact .refl
  · cases h
    exact .refl
  next config c hwords =>
    cases h
    unfold perform
    split
    · exact .refl
    next p hload =>
      obtain ⟨-, -, hsystem⟩ := Project.of_load hload
      have hwrites := p.writesOnly_perform c
      rw [hsystem] at hwrites
      exact hwrites.mono fun q hq => ⟨config, c, p, hwords, hload, hq⟩

/-- Stubs that are written into a file change nothing but that file. -/
theorem System.writesOnly_execute_stub :
    let s : System := { (default : System) with
      files := ⟨[(["C.kt"], .file (.bytes "class C \x7b external fun f() \x7d".toUTF8.data.toList))]⟩ }
    ∃ f, s.execute ["stub", "C.kt", "--output", "C.rs"] = some f ∧ f.code = 0 ∧
      f.system.isFile ⟨"C.rs"⟩ = true ∧
      FileTree.WritesOnly (· = ["C.rs"]) s.files f.system.files := by
  intro s
  have hwords : Invocation.ofWords? ["stub", "C.kt", "--output", "C.rs"] =
      some (.command none (.stub ⟨"C.kt"⟩ none (some ⟨"C.rs"⟩))) := by decide +kernel
  have hrun : (s.execute ["stub", "C.kt", "--output", "C.rs"]).map
      (fun f => (f.code, f.system.isFile ⟨"C.rs"⟩)) = some (0, true) := by decide +kernel
  obtain ⟨f, hf, hfinish⟩ := Option.map_eq_some_iff.mp hrun
  obtain ⟨hcode, hfile⟩ := Prod.mk.inj hfinish
  refine ⟨f, hf, hcode, hfile, (writesOnly_execute hf).mono ?_⟩
  rintro q ⟨config, c, p, hwords', -, hwrites⟩
  cases hwords.symm.trans hwords'
  rw [hwrites.2]
  decide +kernel

end JniLink
