import JniLink.Library.Basic
import JniLink.Proofs.Except
import JniLink.Proofs.File.Tree

/-!
# What the linker opens

A library is opened by the text of a path, but a text and a path do not mean the same. A path names a
file of the system wherever it begins. A text is taken for a path only if there is a slash in it, and
else for a name that the linker looks up in its table. So of the files that paths name those are opened
whose paths hold a slash, and of the others only what the table has under the same name at the same
place (`linksFile_iff`). Nothing is said of what stands in the table.
-/

namespace JniLink

open JniLink.Text

/-! ## The text for the linker -/

theorem Path.linkerText_of_notMem {p : Path} (h : '\x00' ∉ p.text.toList) :
    p.linkerText = .ok p.text := by
  have hlast : p.text.toList.getLast? ≠ some '\x00' :=
    fun hlast => h (List.mem_of_getLast? hlast)
  rw [Path.linkerText]
  exact (if_neg hlast).trans (if_neg h)

namespace System

variable {s : System} {text : String} {path target : Path} {content : Content}

/-! ## The path that is opened for a text -/

theorem linkTarget?_of_slash (h : '/' ∈ text.toList) : s.linkTarget? text = some ⟨text⟩ := if_pos h

theorem linkTarget?_of_notMem (h : '/' ∉ text.toList) : s.linkTarget? text = s.named? text := if_neg h

theorem link_of_target (hne : text ≠ "") (h : s.linkTarget? text = some target) :
    s.link text = (s.linkFile target).mapError (target.text, ·) := by
  rw [link, if_neg hne, h]

theorem link_of_named?_eq_none (hne : text ≠ "") (hslash : '/' ∉ text.toList)
    (h : s.named? text = none) :
    s.link text = .error (text, if isTooLong text.toList then .nameTooLong else .missing) := by
  rw [link, if_neg hne, linkTarget?_of_notMem hslash, h]

/-- What is found by a name is a file. -/
theorem isFile_of_named? (h : s.named? text = some target) : s.isFile target = true := by
  obtain ⟨entry, -, hentry⟩ := List.exists_of_findSome?_eq_some h
  cases entry with
  | opened file => cases hentry
  | named name path =>
    obtain ⟨⟨-, hfile⟩, hpath⟩ := Option.ite_some_none_eq_some.mp hentry
    exact hpath ▸ hfile

/-! ## Files that paths name -/

/-- What the linker makes of the content of a file: an image, or why it is none. -/
def linkContent (s : System) (path : Path) :
    Content → Except (String × OpenFault) (LinkedFile × Image)
  | .bytes data => .error (path.text, if data.length < 64 then .tooShort else .invalidHeader)
  | .image image => .ok (s.linkedFile (path.place s.workingPlace) path, image)

/-- A file that is open already is told by its place. -/
theorem place_linkedFile (s : System) (place : Place) (path : Path) :
    (s.linkedFile place path).place = place := by
  rw [linkedFile]
  cases hopen : s.linker.findSome? _ with
  | none => rfl
  | some file =>
    obtain ⟨entry, -, hentry⟩ := List.exists_of_findSome?_eq_some hopen
    cases entry with
    | named name path => cases hentry
    | opened known =>
      obtain ⟨hplace, hfile⟩ := Option.ite_some_none_eq_some.mp hentry
      exact hfile ▸ hplace

theorem linkContent_ne_missing (s : System) (path : Path) (content : Content) :
    s.linkContent path content ≠ .error (text, .missing) := by
  cases content with
  | image image => exact nofun
  | bytes data =>
    rw [linkContent]
    split
    · exact nofun
    · exact nofun

/-- What the linker makes of a file tells where the file is. -/
theorem place_eq_of_linkContent {path' : Path} {content' : Content}
    (h : s.linkContent path content = s.linkContent path' content') :
    path.place s.workingPlace = path'.place s.workingPlace := by
  cases content with
  | bytes data =>
    cases content' with
    | bytes data' =>
      have htext := (Prod.mk.inj (Except.error.inj h)).1
      exact congrArg (Path.place s.workingPlace ⟨·⟩) htext
    | image image' => cases h
  | image image =>
    cases content' with
    | bytes data' => cases h
    | image image' =>
      have hfile := (Prod.mk.inj (Except.ok.inj h)).1
      rw [← s.place_linkedFile (path.place _) path, hfile, place_linkedFile]

theorem linkFile_of_read (h : s.files.read s.workingPlace path = .ok content) :
    (s.linkFile path).mapError (path.text, ·) = s.linkContent path content := by
  obtain ⟨place, hplace, -⟩ := FileTree.read_eq_ok_iff.mp h
  rw [linkFile, hplace, h, FileTree.eq_place_of_locate hplace]
  cases content <;> rfl

/-- The file that is opened is at the place of its path. -/
theorem place_of_linkFile {found : LinkedFile × Image} (h : s.linkFile path = .ok found) :
    found.1.place = path.place s.workingPlace := by
  obtain ⟨place, hplace, h⟩ := bind_eq_ok.mp h
  obtain ⟨content, -, h⟩ := bind_eq_ok.mp h
  obtain rfl := FileTree.eq_place_of_locate (mapError_eq_ok.mp hplace)
  cases content with
  | bytes data => cases h
  | image image =>
    cases h
    exact s.place_linkedFile _ path

/-- The file that is opened for a text is at the place of the path that is opened for it. -/
theorem place_of_link {file : LinkedFile} {image : Image} (hne : text ≠ "")
    (h : s.link text = .ok (file, image)) :
    ∃ target, s.linkTarget? text = some target ∧ file.place = target.place s.workingPlace := by
  cases htarget : s.linkTarget? text with
  | none =>
    rw [link, if_neg hne, htarget] at h
    cases h
  | some target =>
    refine ⟨target, rfl, ?_⟩
    rw [link_of_target hne htarget] at h
    exact place_of_linkFile (mapError_eq_ok.mp h)

/-- A path that names a file is a text that the linker can be given. -/
theorem of_read (h : s.files.read s.workingPlace path = .ok content) :
    path.text ≠ "" ∧ path.linkerText = .ok path.text := by
  obtain ⟨place, hplace, -⟩ := FileTree.read_eq_ok_iff.mp h
  have hfault : path.fault? = none := by
    unfold FileTree.locate at hplace
    split at hplace
    · cases hplace
    next hnone => exact hnone
  have hne : path.text ≠ "" := FileTree.text_ne_empty_of_fault? hfault
  refine ⟨hne, Path.linkerText_of_notMem fun hnul => ?_⟩
  rw [Path.fault?, if_neg hne, if_pos hnul] at hfault
  cases hfault

theorem linkerText_of_isFile (h : s.isFile path = true) : path.linkerText = .ok path.text := by
  obtain ⟨content, hread⟩ := FileTree.isFile_iff.mp h
  exact (of_read hread).2

/-- A path without a slash that names something is not too long for a name. -/
theorem isTooLong_of_locate {place : Place} (h : s.files.locate s.workingPlace path = .ok place)
    (hslash : '/' ∉ path.text.toList) : isTooLong path.text.toList = false := by
  unfold FileTree.locate at h
  split at h
  · cases h
  · rw [Path.parts_of_notMem hslash] at h
    obtain ⟨-, hname, -⟩ := FileTree.walk_cons_eq_ok_iff.mp h
    by_cases hisName : FileTree.IsName path.text.toList
    · exact (hname hisName).1
    · -- what is no name has two characters at most
      rw [FileTree.IsName, not_and_or, Bool.not_eq_false, not_not, Path.isIdle, Bool.or_eq_true,
        beq_iff_eq, beq_iff_eq] at hisName
      rcases hisName with (htext | htext) | htext
      · rw [htext]; decide
      · rw [htext]; decide
      · rw [htext]; decide

/-- The linker is given a text for a path, and opens by it the file that the path names, whatever the
path is that it opens. -/
def LinksFile (s : System) (path : Path) : Prop :=
  ∃ text target content, path.linkerText = .ok text ∧
    target.place s.workingPlace = path.place s.workingPlace ∧
    s.files.read s.workingPlace path = .ok content ∧ s.link text = s.linkContent target content

theorem isFile_of_linkTarget? (h : s.isFile path = true)
    (htarget : s.linkTarget? path.text = some target) : s.isFile target = true := by
  by_cases hslash : '/' ∈ path.text.toList
  · rw [linkTarget?_of_slash hslash, Option.some.injEq] at htarget
    exact htarget ▸ h
  · exact isFile_of_named? ((linkTarget?_of_notMem hslash).symm.trans htarget)

/-- A file whose path has no slash is missing to the linker if its table does not have the name. -/
theorem link_eq_missing (h : s.isFile path = true) (hnone : s.linkTarget? path.text = none) :
    s.link path.text = .error (path.text, .missing) := by
  obtain ⟨content, hread⟩ := FileTree.isFile_iff.mp h
  obtain ⟨place, hplace, -⟩ := FileTree.read_eq_ok_iff.mp hread
  have hslash : '/' ∉ path.text.toList := by
    intro hslash
    rw [linkTarget?_of_slash hslash] at hnone
    cases hnone
  rw [link_of_named?_eq_none (of_read hread).1 hslash (linkTarget?_of_notMem hslash ▸ hnone),
    isTooLong_of_locate hplace hslash]
  rfl

theorem linksFile_iff_linkTarget? (h : s.isFile path = true) : s.LinksFile path ↔
    ∃ target, s.linkTarget? path.text = some target ∧
      target.place s.workingPlace = path.place s.workingPlace := by
  obtain ⟨content, hread⟩ := FileTree.isFile_iff.mp h
  obtain ⟨hne, htext⟩ := of_read hread
  constructor
  · rintro ⟨text', target', content', htext', hplace, -, hlink⟩
    cases htext.symm.trans htext'
    cases htarget : s.linkTarget? path.text with
    -- the name leads nowhere, and a file that is read is not missing
    | none =>
      exact absurd (hlink.symm.trans (link_eq_missing h htarget))
        (linkContent_ne_missing s target' content')
    -- what the linker answers tells the place of the file that it has opened
    | some target =>
      obtain ⟨content'', hread''⟩ := FileTree.isFile_iff.mp (isFile_of_linkTarget? h htarget)
      rw [link_of_target hne htarget, linkFile_of_read hread''] at hlink
      exact ⟨target, rfl, (place_eq_of_linkContent hlink).trans hplace⟩
  · rintro ⟨target, htarget, hplace⟩
    obtain ⟨content', hread'⟩ := FileTree.isFile_iff.mp (isFile_of_linkTarget? h htarget)
    obtain rfl := FileTree.content_eq_of_place_eq hread' hread hplace
    exact ⟨path.text, target, content', htext, hplace, hread,
      (link_of_target hne htarget).trans (linkFile_of_read hread')⟩

/-- The file that a path names is opened if and only if the path holds a slash, or the linker finds a
file at its place by the name that the path is. -/
theorem linksFile_iff (h : s.isFile path = true) :
    s.LinksFile path ↔ '/' ∈ path.text.toList ∨
      ∃ target, s.named? path.text = some target ∧
        target.place s.workingPlace = path.place s.workingPlace := by
  rw [linksFile_iff_linkTarget? h]
  by_cases hslash : '/' ∈ path.text.toList
  · rw [linkTarget?_of_slash hslash]
    exact iff_of_true ⟨path, rfl, rfl⟩ (.inl hslash)
  · rw [linkTarget?_of_notMem hslash, or_iff_right hslash]

end System

/-! ## Opened libraries -/

namespace Library

variable {s : System} {name : String} {path : Path} {searched : Bool}

/-- The steps by which a library is opened. -/
theorem of_openAt {l : Library} (h : openAt s name path searched = .ok l) :
    ∃ text file image manifest, path.linkerText = .ok text ∧ s.link text = .ok (file, image) ∧
      readManifest name image = .ok manifest ∧
      l = ⟨s.opened, name, path, file, image, manifest⟩ := by
  unfold openAt at h
  split at h
  · cases h
  next text htext =>
    split at h
    · cases h
    next file image hlink =>
      split at h
      · cases h
      next manifest hmanifest =>
        cases h
        exact ⟨text, file, image, manifest, htext, hlink, hmanifest, rfl⟩

/-- A fault of the linker is told with the text that it tried. -/
theorem openAt_of_link_eq_error {text tried : String} {fault : OpenFault}
    (htext : path.linkerText = .ok text) (hlink : s.link text = .error (tried, fault)) :
    openAt s name path searched =
      .error (.cannotLink name tried fault (soughtText path searched)) := by
  unfold openAt
  simp only [htext, hlink]

/-- A library that is opened for a file is where the path leads that the linker opened for it. -/
theorem exists_target_of_openAt {l : Library} (h : s.isFile path = true)
    (hopen : openAt s name path searched = .ok l) :
    ∃ target, s.linkTarget? path.text = some target ∧ l.file.place = target.place s.workingPlace := by
  obtain ⟨text, file, image, manifest, htext, hlink, -, rfl⟩ := of_openAt hopen
  obtain ⟨content, hread⟩ := FileTree.isFile_iff.mp h
  obtain ⟨hne, htext'⟩ := System.of_read hread
  cases htext'.symm.trans htext
  exact System.place_of_link hne hlink

/-- The library that is opened for a file is at its place if and only if it is this file that the
linker opened. -/
theorem place_of_openAt_iff {l : Library} (h : s.isFile path = true)
    (hopen : openAt s name path searched = .ok l) :
    l.file.place = path.place s.workingPlace ↔ s.LinksFile path := by
  obtain ⟨target, htarget, hfile⟩ := exists_target_of_openAt h hopen
  rw [System.linksFile_iff_linkTarget? h, htarget, hfile]
  simp only [Option.some.injEq, exists_eq_left']

end Library

end JniLink
