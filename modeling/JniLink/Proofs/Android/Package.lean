import JniLink.Android.Package
import JniLink.Proofs.File.Join
import Mathlib.Data.Prod.Basic

/-!
# What packaging copies

Packaging looks for every release build before it copies the first one: if one is missing, nothing has
been touched. The copies are made one by one on a tree that changes on the way, and an error between two
of them leaves the former ones standing. What every library holds in the end is nevertheless what its
build held in the beginning, because the copies do not disturb one another (`Undisturbed`): a build stands
in a directory `release`, a library in one with the name of its target, so no copy is made over a build;
and no two targets share a name, so a copy is made over another one only if both are the same.
-/

namespace JniLink

/-- Making the directories above a file writes no file, also if one of them cannot be made. -/
theorem System.writesOnly_of_makeAbove {s s' : System} {file : Path}
    {outcome : Except (Path × FileFault) Unit} (h : s.makeAbove file = (outcome, s'))
    (written : Place → Prop) :
    FileTree.WritesOnly written s.files s'.files ∧ s'.workingPlace = s.workingPlace := by
  unfold makeAbove at h
  split at h
  · cases h
    exact ⟨.refl, rfl⟩
  next dir _ =>
    have hwrites : FileTree.WritesOnly written s.files
        (FileTree.left (s.files.makeDirectories s.workingPlace dir)) :=
      FileTree.writesOnly_makeChain s.files s.workingPlace dir.ancestors
    split at h <;> next hmade =>
      cases h
      rw [hmade] at hwrites
      exact ⟨hwrites, rfl⟩

namespace Android

variable {s s' : System} {source target : Path} {content : Content}

/-! ## Copying -/

/-- What a copy has gone through: the directories are made, and stay as they are if the copy fails. -/
theorem of_copyBuild {outcome : Except PackageError Unit}
    (h : copyBuild s source target = (outcome, s')) :
    (∃ dir fault, s.makeAbove target = (.error (dir, fault), s') ∧
      outcome = .error (.files dir fault)) ∨
    ∃ made, s.makeAbove target = (.ok (), made) ∧
      ((∃ fault, made.files.copy made.workingPlace source target = .error fault ∧
          outcome = .error (.files target fault) ∧ s' = made) ∨
        ∃ copied, made.files.copy made.workingPlace source target = .ok copied ∧
          outcome = .ok () ∧ s' = made.withFiles copied) := by
  unfold copyBuild at h
  split at h
  next dir fault left hmade =>
    cases h
    exact .inl ⟨dir, fault, hmade, rfl⟩
  next made hmade =>
    refine .inr ⟨made, hmade, ?_⟩
    split at h
    next fault hcopy =>
      cases h
      exact .inl ⟨fault, hcopy, rfl, rfl⟩
    next copied hcopy =>
      cases h
      exact .inr ⟨copied, hcopy, rfl, rfl⟩

/-- An error while copying is one of the files. -/
theorem eq_files_of_copyBuild {e : PackageError}
    (h : copyBuild s source target = (.error e, s')) : ∃ path fault, e = .files path fault := by
  rcases of_copyBuild h with ⟨dir, fault, -, he⟩ | ⟨made, -, ⟨fault, -, he, -⟩ | ⟨_, -, he, -⟩⟩
  · exact ⟨dir, fault, Except.error.inj he⟩
  · exact ⟨target, fault, Except.error.inj he⟩
  · cases he

theorem writesOnly_of_copyBuild {outcome : Except PackageError Unit}
    (h : copyBuild s source target = (outcome, s')) :
    FileTree.WritesOnly (· = target.place s.workingPlace) s.files s'.files ∧
      s'.workingPlace = s.workingPlace := by
  rcases of_copyBuild h with ⟨_, _, hmade, -⟩ | ⟨made, hmade, hcopy⟩
  · exact System.writesOnly_of_makeAbove hmade _
  · obtain ⟨hdirs, hplace⟩ := System.writesOnly_of_makeAbove hmade
      (· = target.place s.workingPlace)
    rcases hcopy with ⟨_, -, -, rfl⟩ | ⟨copied, hcopied, -, rfl⟩
    · exact ⟨hdirs, hplace⟩
    · rw [hplace] at hcopied
      exact ⟨hdirs.trans (FileTree.writesOnly_of_copy hcopied), hplace⟩

/-- Copies are made only at their targets, also if one of them fails. -/
theorem writesOnly_copyBuilds (s : System) (copies : List (Path × Path)) :
    FileTree.WritesOnly (fun q => ∃ copy ∈ copies, q = copy.2.place s.workingPlace) s.files
      (copyBuilds s copies).2.files := by
  induction copies generalizing s with
  | nil => exact .refl
  | cons copy copies ih =>
    have hmem {q : Place} (hq : q = copy.2.place s.workingPlace) :
        ∃ copy' ∈ copy :: copies, q = copy'.2.place s.workingPlace :=
      ⟨copy, List.mem_cons_self, hq⟩
    rw [copyBuilds]
    split
    next hcopy => exact (writesOnly_of_copyBuild hcopy).1.mono fun _ => hmem
    next s' hcopy =>
      obtain ⟨hfirst, hplace⟩ := writesOnly_of_copyBuild hcopy
      have hrest := ih s'
      rw [hplace] at hrest
      have hall := (hfirst.mono fun _ => hmem).trans
        (hrest.mono fun q ⟨copy', hmem, hq⟩ => ⟨copy', List.mem_cons_of_mem _ hmem, hq⟩)
      split <;> next hcopies => rwa [hcopies] at hall

theorem read_of_copyBuild (h : copyBuild s source target = (.ok (), s'))
    (hne : source.place s.workingPlace ≠ target.place s.workingPlace)
    (hread : s.files.read s.workingPlace source = .ok content) :
    s'.files.read s.workingPlace target = .ok content := by
  rcases of_copyBuild h with ⟨_, _, -, he⟩ | ⟨made, hmade, ⟨_, -, he, -⟩ | ⟨copied, hcopied, -, rfl⟩⟩
  · cases he
  · cases he
  · obtain ⟨hdirs, hplace⟩ := System.writesOnly_of_makeAbove hmade fun _ => False
    rw [hplace] at hcopied
    exact FileTree.read_copy hcopied hne (hdirs.read hread not_false)

/-- Copies none of which is made over the source of one of them, or over another one. -/
structure Undisturbed (cwd : Place) (copies : List (Path × Path)) : Prop where
  sources : ∀ a ∈ copies, ∀ b ∈ copies, a.1.place cwd ≠ b.2.place cwd
  targets : ∀ a ∈ copies, ∀ b ∈ copies, a.2.place cwd = b.2.place cwd → a = b

theorem Undisturbed.of_cons {cwd : Place} {copy : Path × Path} {copies : List (Path × Path)}
    (h : Undisturbed cwd (copy :: copies)) : Undisturbed cwd copies where
  sources a ha b hb := h.sources a (List.mem_cons_of_mem _ ha) b (List.mem_cons_of_mem _ hb)
  targets a ha b hb := h.targets a (List.mem_cons_of_mem _ ha) b (List.mem_cons_of_mem _ hb)

/-- Every copy holds in the end what its source held in the beginning. -/
theorem read_of_copyBuilds {copies : List (Path × Path)} {paths : List Path}
    (h : copyBuilds s copies = (.ok paths, s')) (hcopies : Undisturbed s.workingPlace copies) :
    paths = copies.map Prod.snd ∧ ∀ copy ∈ copies, ∀ content,
      s.files.read s.workingPlace copy.1 = .ok content →
        s'.files.read s.workingPlace copy.2 = .ok content := by
  induction copies generalizing s paths with
  | nil =>
    cases h
    exact ⟨rfl, nofun⟩
  | cons copy copies ih =>
    rw [copyBuilds] at h
    split at h
    · cases h
    next s₁ hcopy =>
      split at h
      · cases h
      next paths s₂ hrest =>
        cases h
        obtain ⟨hfirst, hplace⟩ := writesOnly_of_copyBuild hcopy
        obtain ⟨rfl, hih⟩ := ih hrest (hplace ▸ hcopies.of_cons)
        rw [hplace] at hih
        refine ⟨rfl, fun other hother content hread => ?_⟩
        have hkept : s₁.files.read s.workingPlace other.1 = .ok content :=
          hfirst.read hread (hcopies.sources other hother copy List.mem_cons_self)
        -- a copy that is made again later on is one of the rest
        by_cases hmem : other ∈ copies
        · exact hih other hmem content hkept
        · obtain rfl : other = copy := (List.mem_cons.mp hother).resolve_right hmem
          have hcopied : s₁.files.read s.workingPlace other.2 = .ok content :=
            read_of_copyBuild hcopy (hcopies.sources other hother other hother) hread
          have hwrites := writesOnly_copyBuilds s₁ copies
          rw [hrest, hplace] at hwrites
          refine hwrites.read hcopied ?_
          rintro ⟨later, hlater, heq⟩
          have hsame := hcopies.targets other hother later (List.mem_cons_of_mem _ hlater) heq
          exact hmem (hsame ▸ hlater)

/-! ## Places -/

theorem Target.ofAbi?_abi (t : Target) : Target.ofAbi? t.abi = some t := by
  cases t <;> decide

/-- A library never stands in a directory of builds. -/
theorem Target.abi_ne_release (t : Target) : t.abi ≠ "release" := by
  cases t <;> decide

section Places

variable {cwd : Place} {library : String} (h : '/' ∉ library.toList)
include h

theorem slash_notMem_fileName : '/' ∉ (Target.fileName library).toList := by
  have hbefore : '/' ∉ "lib".toList := by decide
  have hbehind : '/' ∉ ".so".toList := by decide
  simp only [Target.fileName, String.toList_append, List.mem_append, not_or]
  exact ⟨⟨hbefore, h⟩, hbehind⟩

theorem place_join_fileName (dir : Path) :
    (dir / Target.fileName library).place cwd = dir.place cwd ++ [Target.fileName library] := by
  refine Path.place_join_of_isName dir (slash_notMem_fileName h) ?_
  rw [Target.fileName, String.toList_append, String.toList_append]
  exact ⟨rfl, nofun⟩

theorem place_libraryPath (t : Target) (jniLibs : Path) :
    (t.libraryPath jniLibs library).place cwd =
      jniLibs.place cwd ++ [t.abi] ++ [Target.fileName library] := by
  rw [Target.libraryPath, place_join_fileName h,
    Path.place_join_of_isName _ (by cases t <;> decide) (by cases t <;> decide)]

theorem place_buildPath (t : Target) (targetDir : Path) :
    (t.buildPath targetDir library).place cwd =
      targetDir.place cwd ++ [t.triple] ++ ["release"] ++ [Target.fileName library] := by
  rw [Target.buildPath, place_join_fileName h, Path.place_join_of_isName _ (by decide) (by decide),
    Path.place_join_of_isName _ (by cases t <;> decide) (by cases t <;> decide)]

/-- The copies for some targets do not disturb one another, wherever the two directories are. -/
theorem undisturbed_builds (targets : List Target) (targetDir jniLibs : Path) :
    Undisturbed cwd
      (targets.map fun t => (t.buildPath targetDir library, t.libraryPath jniLibs library)) where
  sources := by
    simp only [List.forall_mem_map, place_buildPath h, place_libraryPath h]
    intro t _ u _ heq
    have hdirs := List.append_inj_left' heq rfl
    exact u.abi_ne_release (List.head_eq_of_cons_eq (List.append_inj_right' hdirs rfl)).symm
  targets := by
    simp only [List.forall_mem_map, place_libraryPath h]
    intro t _ u _ heq
    have hdirs := List.append_inj_left' heq rfl
    have habi : t.abi = u.abi := List.head_eq_of_cons_eq (List.append_inj_right' hdirs rfl)
    have htarget : some t = some u := by rw [← Target.ofAbi?_abi, habi, Target.ofAbi?_abi]
    rw [Option.some.inj htarget]

end Places

/-! ## Packaging -/

/-- Nothing is copied unless every build is there. -/
theorem writesOnly_package (s : System) (targets : List Target) (targetDir jniLibs : Path)
    (library : String) :
    FileTree.WritesOnly
      (fun q => (∀ t ∈ targets, s.isFile (t.buildPath targetDir library) = true) ∧
        ∃ t ∈ targets, q = (t.libraryPath jniLibs library).place s.workingPlace)
      s.files (package s targets targetDir jniLibs library).2.files := by
  unfold package
  split
  · exact .refl
  next hfound =>
    have hbuilds : ∀ t ∈ targets, s.isFile (t.buildPath targetDir library) = true := by
      simpa using hfound
    refine (writesOnly_copyBuilds s _).mono ?_
    rintro q ⟨copy, hmem, rfl⟩
    obtain ⟨t, ht, rfl⟩ := List.mem_map.mp hmem
    exact ⟨hbuilds, t, ht, rfl⟩

theorem eq_files_of_copyBuilds {copies : List (Path × Path)} {e : PackageError}
    (h : (copyBuilds s copies).1 = .error e) : ∃ path fault, e = .files path fault := by
  induction copies generalizing s with
  | nil => cases h
  | cons copy copies ih =>
    rw [copyBuilds] at h
    split at h
    next hcopy =>
      cases h
      exact eq_files_of_copyBuild hcopy
    next s₁ hcopy =>
      split at h
      next hrest =>
        cases h
        exact ih (congrArg Prod.fst hrest)
      next => cases h

/-- Packaging finds the first build that is missing, or copies. -/
theorem package_cases (s : System) (targets : List Target) (targetDir jniLibs : Path)
    (library : String) :
    (∃ before t after, targets = before ++ t :: after ∧
      (∀ u ∈ before, s.isFile (u.buildPath targetDir library) = true) ∧
      s.isFile (t.buildPath targetDir library) = false ∧
      package s targets targetDir jniLibs library =
        (.error (.missingBuild t (t.buildPath targetDir library)), s)) ∨
    (∀ t ∈ targets, s.isFile (t.buildPath targetDir library) = true) ∧
      package s targets targetDir jniLibs library =
        copyBuilds s
          (targets.map fun t => (t.buildPath targetDir library, t.libraryPath jniLibs library)) := by
  unfold package
  split
  next t hfound =>
    obtain ⟨hmissing, before, after, rfl, hbefore⟩ := List.find?_eq_some_iff_append.mp hfound
    exact .inl ⟨before, t, after, rfl, by simpa using hbefore, by simpa using hmissing, rfl⟩
  next hfound => exact .inr ⟨by simpa using hfound, rfl⟩

/-- A missing build is reported exactly if there is one: the first in the list is named, and nothing is
touched. If the copies are made, their paths are those of the targets in order, each library holds what
its build held before, and every other file is what it was. -/
theorem package_all_or_nothing {library : String} (h : '/' ∉ library.toList) (s : System)
    (targets : List Target) (targetDir jniLibs : Path) {outcome : Except PackageError (List Path)}
    {left : System} (hpackage : package s targets targetDir jniLibs library = (outcome, left)) :
    ((∃ t path, outcome = .error (.missingBuild t path)) ↔
      ∃ t ∈ targets, s.isFile (t.buildPath targetDir library) = false) ∧
    (∀ t path, outcome = .error (.missingBuild t path) →
      path = t.buildPath targetDir library ∧ s.isFile path = false ∧
        (∃ before after, targets = before ++ t :: after ∧
          ∀ u ∈ before, s.isFile (u.buildPath targetDir library) = true) ∧
        left = s) ∧
    ∀ paths, outcome = .ok paths →
      paths = targets.map (·.libraryPath jniLibs library) ∧
        (∀ t ∈ targets, ∃ content,
          s.files.read s.workingPlace (t.buildPath targetDir library) = .ok content ∧
            left.files.read s.workingPlace (t.libraryPath jniLibs library) = .ok content) ∧
        ∀ q content, (∀ t ∈ targets, q ≠ (t.libraryPath jniLibs library).place s.workingPlace) →
          (left.files.node? q = some (.file content) ↔
            s.files.node? q = some (.file content)) := by
  rcases package_cases s targets targetDir jniLibs library with
    ⟨before, t, after, rfl, hbefore, hmissing, heq⟩ | ⟨hbuilds, heq⟩ <;>
    rw [heq] at hpackage
  · cases hpackage
    refine ⟨iff_of_true ⟨t, _, rfl⟩ ⟨t, by simp, hmissing⟩, ?_, nofun⟩
    intro t' path hout
    cases hout
    exact ⟨rfl, hmissing, ⟨before, after, rfl, hbefore⟩, rfl⟩
  · have hnot (t : Target) (path : Path) : outcome ≠ .error (.missingBuild t path) := by
      intro hout
      obtain ⟨_, _, hfiles⟩ := eq_files_of_copyBuilds ((congrArg Prod.fst hpackage).trans hout)
      cases hfiles
    refine ⟨iff_of_false ?_ ?_, fun t path hout => absurd hout (hnot t path), ?_⟩
    · rintro ⟨t, path, hout⟩
      exact hnot t path hout
    · rintro ⟨t, ht, hmissing⟩
      rw [hbuilds t ht] at hmissing
      cases hmissing
    · rintro paths rfl
      obtain ⟨hpaths, hread⟩ :=
        read_of_copyBuilds hpackage (undisturbed_builds h targets targetDir jniLibs)
      have hwrites := writesOnly_copyBuilds s
        (targets.map fun t => (t.buildPath targetDir library, t.libraryPath jniLibs library))
      rw [hpackage] at hwrites
      refine ⟨hpaths.trans List.map_map, fun t ht => ?_, fun q content hq => ?_⟩
      · obtain ⟨content, hcontent⟩ := FileTree.isFile_iff.mp (hbuilds t ht)
        exact ⟨content, hcontent, hread _ (List.mem_map_of_mem ht) content hcontent⟩
      · refine hwrites.node?_file_iff ?_
        rintro ⟨copy, hcopy, rfl⟩
        obtain ⟨t, ht, rfl⟩ := List.mem_map.mp hcopy
        exact hq t ht rfl

/-- Libraries that are bundled in the directory of the builds, one of them twice. -/
theorem package_all_or_nothing_same_directory :
    let build (t : Target) : Place := ["target", t.triple, "release", "libhello.so"]
    let s : System := { (default : System) with
      files := ⟨[(build .x8664, .file (.bytes [1])), (build .armv7, .file (.bytes [2])),
        (["target", Target.triple .x8664, "release"], .directory),
        (["target", Target.triple .armv7, "release"], .directory),
        (["target", Target.triple .x8664], .directory),
        (["target", Target.triple .armv7], .directory), (["target"], .directory)]⟩ }
    let targets : List Target := [.x8664, .armv7, .x8664]
    ∃ left, package s targets ⟨"target"⟩ ⟨"target"⟩ "hello" =
        (.ok (targets.map (·.libraryPath ⟨"target"⟩ "hello")), left) ∧
      ∀ t ∈ targets, ∃ content,
        s.files.read s.workingPlace (t.buildPath ⟨"target"⟩ "hello") = .ok content ∧
          left.files.read s.workingPlace (t.libraryPath ⟨"target"⟩ "hello") = .ok content := by
  intro build s targets
  have hrun : (package s targets ⟨"target"⟩ ⟨"target"⟩ "hello").1 =
      .ok (targets.map (·.libraryPath ⟨"target"⟩ "hello")) := by decide +kernel
  have hpackage := Prod.fst_eq_iff.mp hrun
  have hname : '/' ∉ "hello".toList := by decide
  obtain ⟨-, -, hcopied⟩ := package_all_or_nothing hname s targets _ _ hpackage
  exact ⟨_, hpackage, (hcopied _ rfl).2.1⟩

end Android

end JniLink
