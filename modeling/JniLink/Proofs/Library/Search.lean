import JniLink.Command.Project
import JniLink.Proofs.Config.Validity
import JniLink.Proofs.Lookup
import JniLink.Proofs.Registry.Loading

/-!
# The file that is found and the file that is opened

A loader finds the file of a library in the first of its directories that has it, and a command takes a
text for a path if there is a file of that name. What was found is then given to the linker as a path,
and the linker opens it if the path holds a slash. A file name joined to a directory does, unless the
directory is the empty path; the text of a command does if it is more than a file name. In the other
cases the linker looks the text up as a name. It may find nothing, although there is a file that was
just found, or a file that is somewhere else (`linksFile_found_iff`).
-/

namespace JniLink

open JniLink.Text

/-! ## Slashes in joined paths -/

/-- A name is joined to every path but the empty one by a slash. -/
theorem Path.slash_mem_join_iff (dir : Path) {name : String} (h : '/' ∉ name.toList) :
    '/' ∈ (dir / name).text.toList ↔ dir ≠ .empty := by
  have hrelative : Path.isAbsolute ⟨name⟩ = false := isAbsolute_of_notMem h
  have hjoin : dir / name = dir.join ⟨name⟩ := rfl
  rw [hjoin, join, if_neg (Bool.eq_false_iff.mp hrelative)]
  by_cases hempty : dir.text = ""
  · have hdir : dir = .empty := congrArg Path.mk hempty
    subst hdir
    simpa [Path.empty] using h
  · have hdir : dir ≠ .empty := fun hdir => hempty (congrArg Path.text hdir)
    refine iff_of_true ?_ hdir
    dsimp only
    by_cases hlast : dir.text.toList.getLast? = some '/'
    · rw [if_pos (.inr hlast), String.toList_append]
      exact List.mem_append_left _ (List.mem_of_getLast? hlast)
    · have hnot : ¬ (dir.text.toList = [] ∨ dir.text.toList.getLast? = some '/') :=
        not_or.mpr ⟨mt String.toList_eq_nil_iff.mp hempty, hlast⟩
      rw [if_neg hnot, String.toList_append, String.toList_append]
      exact List.mem_append_left _ (List.mem_append_right _ (List.mem_singleton_self '/'))

theorem Library.slash_notMem_fileName {name : String} (h : '/' ∉ name.toList) :
    '/' ∉ (fileName name).toList := by
  rw [fileName, String.toList_append, String.toList_append, List.mem_append, List.mem_append]
  rintro ((hlib | hname) | hso)
  · exact absurd hlib (by decide)
  · exact h hname
  · exact absurd hso (by decide)

namespace Loader

/-! ## The first directory that has the file -/

/-- The file of a library is in a directory, and in none of those that stand before it in a list. -/
def IsFirst (s : System) (name : String) (dirs : List Path) (dir : Path) : Prop :=
  ∃ before after, dirs = before ++ dir :: after ∧ s.isFile (dir / Library.fileName name) = true ∧
    ∀ other ∈ before, ¬ s.isFile (other / Library.fileName name) = true

variable {l : Loader} {s : System} {name : String} {path : Path}

theorem find?_dir_eq_some_iff {dirs : List Path} {dir : Path} :
    dirs.find? (fun dir => s.isFile (dir / Library.fileName name)) = some dir ↔
      IsFirst s name dirs dir :=
  find?_eq_some_iff_first fun _ => Iff.rfl

theorem exists_isFirst {dirs : List Path}
    (h : ∃ dir ∈ dirs, s.isFile (dir / Library.fileName name) = true) :
    ∃ dir, IsFirst s name dirs dir := by
  obtain ⟨dir, hfind⟩ := Option.isSome_iff_exists.mp (List.find?_isSome.mpr h)
  exact ⟨dir, find?_dir_eq_some_iff.mp hfind⟩

/-- What is found is the file in the first directory that has it. -/
theorem find?_eq_some_iff : l.find? s name = some path ↔
    ∃ dir, IsFirst s name l.searchPaths dir ∧ path = dir / Library.fileName name := by
  rw [find?, List.find?_map, Option.map_eq_some_iff]
  exact exists_congr fun dir => and_congr find?_dir_eq_some_iff eq_comm

theorem find?_of_isFirst {dir : Path} (h : IsFirst s name l.searchPaths dir) :
    l.find? s name = some (dir / Library.fileName name) :=
  find?_eq_some_iff.mpr ⟨dir, h, rfl⟩

theorem load_of_find? (hname : Library.validateName name = .ok ()) (h : l.find? s name = some path) :
    l.load s name = Library.openAt s name path true := by
  rw [load, hname, h]
  rfl

theorem validateName_of_load {library : Library} (h : l.load s name = .ok library) :
    Library.validateName name = .ok () := by
  rw [load] at h
  split at h
  · cases h
  next hname => exact hname

/-- A library that is in a directory has its path there. -/
theorem path_of_load {library : Library} {dir : Path} (h : l.load s name = .ok library)
    (hfirst : IsFirst s name l.searchPaths dir) : library.path = dir / Library.fileName name := by
  rw [load_of_find? (validateName_of_load h) (find?_of_isFirst hfirst)] at h
  obtain ⟨_, _, _, _, -, -, -, rfl⟩ := Library.of_openAt h
  rfl

end Loader

/-- What is asked for the first time is what the loader answers. -/
theorem Project.map_loadLibrary {p : Project} {q : Request} (hfresh : p.registry.find? q.key = none) :
    (p.loadLibrary q).map (·.1) = q.run p.registry.loader p.system := by
  rw [loadLibrary, Registry.load_of_find?_eq_none hfresh]
  cases q.run p.registry.loader p.system with
  | error e => rfl
  | ok library => rfl

theorem Project.map_openLibrary_of_file {p : Project} {library : String}
    (hfile : p.system.isFile ⟨library⟩ = true) (hfresh : p.registry.find? library = none) :
    (p.openLibrary library).map (·.1) = Library.openAt p.system library ⟨library⟩ false := by
  have hrequest : p.request library = .file ⟨library⟩ := by
    rw [request, hfile, Bool.or_true]
    rfl
  rw [openLibrary, hrequest]
  exact map_loadLibrary hfresh

/-! ## What is found and what is opened -/

/-- What a loader finds for a bare name, and what a command takes for a path, is a file, and its path is
what the linker is given; the path that a loader finds holds a slash if and only if the directory that
has the file is not the empty path. The linker opens this file if and only if the path holds a slash or
the path, taken as a name, leads the linker to the same place. By a name that leads nowhere it opens
nothing, and by one that leads elsewhere the library there. -/
theorem Project.linksFile_found_iff (p : Project) :
    (∀ (l : Loader) (name : String) (path : Path),
      Library.validateName name = .ok () → l.find? p.system name = some path →
        ∃ dir, Loader.IsFirst p.system name l.searchPaths dir ∧
          path = dir / Library.fileName name ∧ p.system.isFile path = true ∧
          l.load p.system name = Library.openAt p.system name path true ∧
          ('/' ∈ path.text.toList ↔ dir ≠ .empty)) ∧
    (∀ library : String, p.system.isFile ⟨library⟩ = true → p.registry.find? library = none →
      (p.openLibrary library).map (·.1) = Library.openAt p.system library ⟨library⟩ false) ∧
    ∀ (name : String) (path : Path) (searched : Bool), p.system.isFile path = true →
      path.linkerText = .ok path.text ∧
      (p.system.LinksFile path ↔ '/' ∈ path.text.toList ∨
        ∃ target, p.system.named? path.text = some target ∧
          target.place p.system.workingPlace = path.place p.system.workingPlace) ∧
      ('/' ∉ path.text.toList → p.system.named? path.text = none →
        Library.openAt p.system name path searched =
          .error (.cannotLink name path.text .missing (Library.soughtText path searched))) ∧
      ∀ library : Library, Library.openAt p.system name path searched = .ok library →
        (∃ target, p.system.linkTarget? path.text = some target ∧
          library.file.place = target.place p.system.workingPlace) ∧
        (library.file.place = path.place p.system.workingPlace ↔ p.system.LinksFile path) := by
  refine ⟨fun l name path hname hfind => ?_, fun library => map_openLibrary_of_file,
    fun name path searched hfile => ?_⟩
  · obtain ⟨dir, hfirst, rfl⟩ := Loader.find?_eq_some_iff.mp hfind
    have hfile : p.system.isFile (dir / Library.fileName name) = true := by
      obtain ⟨_, _, -, hfile, -⟩ := hfirst
      exact hfile
    have hbare := Library.isBare_of_validateName hname
    exact ⟨dir, hfirst, rfl, hfile, Loader.load_of_find? hname hfind,
      dir.slash_mem_join_iff (Library.slash_notMem_fileName hbare.slash)⟩
  · have htext := p.system.linkerText_of_isFile hfile
    refine ⟨htext, System.linksFile_iff hfile, fun hslash hnone => ?_, fun library hopen =>
      ⟨Library.exists_target_of_openAt hfile hopen, Library.place_of_openAt_iff hfile hopen⟩⟩
    have htarget := (System.linkTarget?_of_notMem hslash).trans hnone
    exact Library.openAt_of_link_eq_error htext (System.link_eq_missing hfile htarget)

/-- The library is in the second directory, whose path ends in a slash, and a command is given the
path of the same file; the file of another library is in the empty directory, and the linker finds one
of the same name. -/
theorem Project.linksFile_found_iff_two_directories :
    let image : Image := ⟨[("f", some [104, 105])]⟩
    let other : Image := ⟨[("f", some [72, 105])]⟩
    let s : System := { (default : System) with
      files := ⟨[(["libs"], .directory), (["libs", "libx.so"], .file (.image image)),
        (["liby.so"], .file (.image image)), (["lib"], .directory),
        (["lib", "liby.so"], .file (.image other))]⟩
      linker := [.named "liby.so" ⟨"/lib/liby.so"⟩] }
    let l : Loader := ⟨[⟨"none"⟩, ⟨"libs/"⟩, .empty]⟩
    let p : Project := ⟨{}, .ofLoader l, s⟩
    (∃ dir, Loader.IsFirst s "x" l.searchPaths dir ∧ (⟨"libs/libx.so"⟩ : Path) = dir / "libx.so" ∧
      dir ≠ .empty) ∧ s.LinksFile ⟨"libs/libx.so"⟩ ∧
      (p.openLibrary "libs/libx.so").map (·.1) =
        Library.openAt s "libs/libx.so" ⟨"libs/libx.so"⟩ false ∧
      (∃ dir, Loader.IsFirst s "y" l.searchPaths dir ∧ (⟨"liby.so"⟩ : Path) = dir / "liby.so" ∧
        dir = .empty) ∧ ¬ s.LinksFile ⟨"liby.so"⟩ ∧
      (l.load s "y").map (·.image) = .ok other := by
  intro image other s l p
  have hslash : '/' ∈ (⟨"libs/libx.so"⟩ : Path).text.toList := by decide +kernel
  have hbare : '/' ∉ (⟨"liby.so"⟩ : Path).text.toList := by decide +kernel
  have hname : Library.validateName "x" = .ok () := by decide +kernel
  have hname' : Library.validateName "y" = .ok () := by decide +kernel
  have hfind : l.find? p.system "x" = some ⟨"libs/libx.so"⟩ := by decide +kernel
  have hfind' : l.find? p.system "y" = some ⟨"liby.so"⟩ := by decide +kernel
  obtain ⟨hfound, hopened, hlinked⟩ := Project.linksFile_found_iff p
  obtain ⟨dir, hfirst, hpath, hfile, -, hdir⟩ := hfound l "x" ⟨"libs/libx.so"⟩ hname hfind
  obtain ⟨dir', hfirst', hpath', hfile', -, hdir'⟩ := hfound l "y" ⟨"liby.so"⟩ hname' hfind'
  obtain ⟨-, hlinks, -⟩ := hlinked "x" ⟨"libs/libx.so"⟩ true hfile
  obtain ⟨-, hlinks', -⟩ := hlinked "y" ⟨"liby.so"⟩ true hfile'
  have hnamed : p.system.named? "liby.so" = some ⟨"/lib/liby.so"⟩ := by decide +kernel
  refine ⟨⟨dir, hfirst, hpath, hdir.mp hslash⟩, hlinks.mpr (.inl hslash),
    hopened "libs/libx.so" hfile rfl,
    ⟨dir', hfirst', hpath', not_ne_iff.mp (mt hdir'.mpr hbare)⟩, fun hlinks => ?_, by decide +kernel⟩
  obtain hmem | ⟨target, htarget, hplace⟩ := hlinks'.mp hlinks
  · exact hbare hmem
  · rw [hnamed, Option.some.injEq] at htarget
    subst htarget
    revert hplace
    decide +kernel

/-- A library in the working directory is found through an empty path in the list, and a command finds
it by the name of its file. The linker is given that name and opens nothing either time. -/
theorem Project.found_file_not_linked :
    let image : Image := ⟨[("f", some [104, 105])]⟩
    let s : System := { (default : System) with
      files := ⟨[(["libx.so"], .file (.image image))]⟩
      environment := [(Loader.pathVariable, "")] }
    let l := Loader.default s
    let p : Project := ⟨{}, .ofLoader l, s⟩
    l.find? s "x" = some ⟨"libx.so"⟩ ∧ s.isFile ⟨"libx.so"⟩ = true ∧
      (Path.mk "libx.so").linkerText = .ok "libx.so" ∧ '/' ∉ "libx.so".toList ∧
      l.load s "x" = .error (.cannotLink "x" "libx.so" .missing (some "libx.so")) ∧
      p.request "libx.so" = .file ⟨"libx.so"⟩ ∧
      (p.openLibrary "libx.so").map (·.1) =
        .error (.cannotLink "libx.so" "libx.so" .missing none) := by
  decide +kernel

end JniLink
