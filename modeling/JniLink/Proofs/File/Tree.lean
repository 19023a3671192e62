import JniLink.File.Tree
import JniLink.Proofs.File.Path
import JniLink.Proofs.Text.Utf8
import Mathlib.Data.List.Basic
import Mathlib.Data.List.TakeWhile

/-!
# What operations on files change

The place that a path names can be told from the path alone: the parts are names to go down by, and
`..` goes back up. Whether a walk along the parts gets there depends on what stands in the tree; where
it ends does not. So an operation that writes a file changes at most the place that its path names, and
one that makes directories puts them only where nothing stood. A walk that got somewhere before such a
change still gets there.
-/

namespace JniLink

open JniLink.Text

/-! ## Places that paths name -/

/-- Goes one part of a path further from a place. -/
def Path.go (here : Place) (part : List Char) : Place :=
  if isIdle part then here
  else if part = ['.', '.'] then here.dropLast
  else here ++ [String.ofList part]

/-- The place that a path names from a working directory. -/
def Path.place (cwd : Place) (p : Path) : Place :=
  p.parts.foldl Path.go (FileTree.base cwd p)

namespace FileTree

variable {t t' t'' : FileTree} {cwd here q : Place} {p : Path} {parts : List (List Char)}

/-- A part that is the name of something in a directory. -/
def IsName (part : List Char) : Prop := Path.isIdle part = false ∧ part ≠ ['.', '.']

instance decidableIsName (part : List Char) : Decidable (IsName part) :=
  inferInstanceAs (Decidable (_ ∧ _))

theorem go_of_isName {part : List Char} (h : IsName part) :
    Path.go here part = here ++ [String.ofList part] := by
  rw [Path.go, if_neg (Bool.eq_false_iff.mp h.1), if_neg h.2]

theorem isName_of_isDots {part : List Char} (hne : part ≠ []) (hdots : isDots part = false) :
    IsName part := by
  rw [isDots, Bool.or_eq_false_iff, beq_eq_false_iff_ne, beq_eq_false_iff_ne] at hdots
  refine ⟨?_, hdots.2⟩
  rw [Path.isIdle, Bool.or_eq_false_iff, beq_eq_false_iff_ne, beq_eq_false_iff_ne]
  exact ⟨hne, hdots.1⟩

/-- A walk takes each part from a directory, and a name leads to something that is there. -/
theorem walk_cons_eq_ok_iff {part : List Char} :
    t.walk here (part :: parts) = .ok q ↔
      t.node? here = some .directory ∧
        (IsName part → isTooLong part = false ∧ (t.node? (Path.go here part)).isSome = true) ∧
        t.walk (Path.go here part) parts = .ok q := by
  rw [walk]
  split
  next hnone => simp [hnone]
  next hfile => simp [hfile]
  next hhere =>
    rw [and_iff_right hhere]
    by_cases hidle : Path.isIdle part = true
    · have hgo : Path.go here part = here := if_pos hidle
      rw [if_pos hidle, hgo, and_iff_right fun hname => absurd hidle (Bool.eq_false_iff.mp hname.1)]
    by_cases hdots : part = ['.', '.']
    · have hgo : Path.go here part = here.dropLast := (if_neg hidle).trans (if_pos hdots)
      rw [if_neg hidle, if_pos hdots, hgo, and_iff_right fun hname => absurd hdots hname.2]
    · have hname : IsName part := ⟨Bool.eq_false_iff.mpr hidle, hdots⟩
      rw [if_neg hidle, if_neg hdots, go_of_isName hname, imp_iff_right hname]
      dsimp only
      cases isTooLong part <;> cases (t.node? (here ++ [String.ofList part])).isSome <;> simp

theorem walk_append {here' : Place} {parts' : List (List Char)} (h : t.walk here parts = .ok here')
    (h' : t.walk here' parts' = .ok q) : t.walk here (parts ++ parts') = .ok q := by
  induction parts generalizing here with
  | nil => exact Except.ok.inj h ▸ h'
  | cons part parts ih =>
    obtain ⟨hhere, hname, hrest⟩ := walk_cons_eq_ok_iff.mp h
    exact walk_cons_eq_ok_iff.mpr ⟨hhere, hname, ih hrest⟩

theorem eq_foldl_of_walk (h : t.walk here parts = .ok q) : q = parts.foldl Path.go here := by
  induction parts generalizing here with
  | nil => exact (Except.ok.inj h).symm
  | cons part parts ih => exact ih (walk_cons_eq_ok_iff.mp h).2.2

/-- The parts of a path end in empty ones behind the solid ones. -/
theorem exists_parts_eq (p : Path) :
    ∃ idle, p.parts = solidParts p ++ idle ∧ ∀ part ∈ idle, part = [] := by
  refine ⟨(p.parts.reverse.takeWhile (· = [])).reverse, ?_, fun part hpart => ?_⟩
  · rw [solidParts, ← List.reverse_append, List.takeWhile_append_dropWhile, List.reverse_reverse]
  · simpa using List.mem_takeWhile_imp (List.mem_reverse.mp hpart)

theorem foldl_go_of_forall_eq_nil {idle : List (List Char)} (h : ∀ part ∈ idle, part = []) :
    idle.foldl Path.go here = here := by
  induction idle with
  | nil => rfl
  | cons part idle ih =>
    obtain ⟨rfl, hrest⟩ := List.forall_mem_cons.mp h
    exact ih hrest

theorem getLast?_solidParts_ne_nil {last : List Char} (h : (solidParts p).getLast? = some last) :
    last ≠ [] := by
  rw [solidParts, List.getLast?_reverse] at h
  intro hlast
  have := List.head?_dropWhile_not (· = []) p.parts.reverse
  rw [h, hlast] at this
  simp at this

/-- Going to the directory that is to hold what a path names, and then to its last part. -/
theorem of_parentOf {last : List Char} (h : t.parentOf cwd p = .ok (some (here, last))) :
    p.fault? = none ∧ t.walk (base cwd p) (solidParts p).dropLast = .ok here ∧
      t.node? here = some .directory ∧ last ≠ [] ∧
      solidParts p = (solidParts p).dropLast ++ [last] := by
  unfold parentOf at h
  split at h
  · cases h
  next hfault =>
    split at h
    · cases h
    next hlast =>
      split at h
      · cases h
      next hwalk =>
        split at h
        next hhere =>
          cases h
          exact ⟨hfault, hwalk, hhere, getLast?_solidParts_ne_nil hlast,
            (List.dropLast_append_getLast? last hlast).symm⟩
        · cases h
        · cases h

theorem place_eq_of_parentOf {last : List Char} (h : t.parentOf cwd p = .ok (some (here, last)))
    (hdots : isDots last = false) : p.place cwd = here ++ [String.ofList last] := by
  obtain ⟨-, hwalk, -, hne, hsolid⟩ := of_parentOf h
  obtain ⟨idle, hparts, hidle⟩ := exists_parts_eq p
  rw [Path.place, hparts, List.foldl_append, foldl_go_of_forall_eq_nil hidle, hsolid,
    List.foldl_append, ← eq_foldl_of_walk hwalk, List.foldl_cons, List.foldl_nil,
    go_of_isName (isName_of_isDots hne hdots)]

/-- What a place has to be for a file to be written there. -/
theorem of_filePlace (h : t.filePlace cwd p = .ok q) :
    ∃ here last, t.parentOf cwd p = .ok (some (here, last)) ∧ q = here ++ [String.ofList last] ∧
      isDots last = false ∧ p.text.toList.getLast? ≠ some '/' ∧ isTooLong last = false ∧
      t.node? q ≠ some .directory := by
  unfold filePlace at h
  split at h
  · cases h
  · cases h
  next here last hparent =>
    dsimp only at h
    split at h
    · cases h
    next hdots =>
      split at h
      · cases h
      next hlong =>
        split at h
        · cases h
        next hdirectory =>
          cases h
          rw [Bool.or_eq_true, not_or, Bool.not_eq_true, beq_iff_eq] at hdots
          exact ⟨here, last, hparent, rfl, hdots.1, hdots.2, Bool.eq_false_iff.mpr hlong,
            fun hnode => hdirectory (beq_iff_eq.mpr hnode)⟩

theorem eq_place_of_filePlace (h : t.filePlace cwd p = .ok q) : q = p.place cwd := by
  obtain ⟨here, last, hparent, rfl, hdots, -⟩ := of_filePlace h
  exact (place_eq_of_parentOf hparent hdots).symm

/-! ## Changes -/

/-- A tree came from another one by making directories where nothing stood and by writing files, over
files or over nothing, at some places. -/
def WritesOnly (written : Place → Prop) (t t' : FileTree) : Prop :=
  ∀ q, t'.node? q = t.node? q ∨ (t.node? q = none ∧ t'.node? q = some .directory) ∨
    written q ∧ t.node? q ≠ some .directory ∧ ∃ content, t'.node? q = some (.file content)

variable {written written' : Place → Prop}

theorem WritesOnly.refl : WritesOnly written t t := fun _ => .inl rfl

theorem WritesOnly.trans (h : WritesOnly written t t') (h' : WritesOnly written t' t'') :
    WritesOnly written t t'' := by
  intro q
  rcases h q with hsame | ⟨hnone, hmade⟩ | ⟨hq, hfile, content, hcontent⟩ <;>
    rcases h' q with hsame' | ⟨hnone', hmade'⟩ | ⟨hq', hfile', content', hcontent'⟩
  · exact .inl (hsame'.trans hsame)
  · exact .inr (.inl ⟨hsame.symm.trans hnone', hmade'⟩)
  · exact .inr (.inr ⟨hq', hsame ▸ hfile', content', hcontent'⟩)
  · exact .inr (.inl ⟨hnone, hsame'.trans hmade⟩)
  · exact .inr (.inl ⟨hnone, hmade'⟩)
  · exact absurd hmade hfile'
  · exact .inr (.inr ⟨hq, hfile, content, hsame'.trans hcontent⟩)
  · rw [hcontent] at hnone'
    cases hnone'
  · exact .inr (.inr ⟨hq, hfile, content', hcontent'⟩)

theorem WritesOnly.mono (h : WritesOnly written t t') (himp : ∀ q, written q → written' q) :
    WritesOnly written' t t' :=
  fun q => (h q).imp_right (.imp_right (.imp_left (himp q)))

/-- Directories stay where they are. -/
theorem WritesOnly.node?_directory (h : WritesOnly written t t')
    (hq : t.node? q = some .directory) : t'.node? q = some .directory := by
  rcases h q with hsame | ⟨-, hmade⟩ | ⟨-, hfile, -⟩
  · exact hsame.trans hq
  · exact hmade
  · exact absurd hq hfile

/-- Files at other places than those that were written are what they were. -/
theorem WritesOnly.node?_file_iff {content : Content} (h : WritesOnly written t t')
    (hq : ¬ written q) : t'.node? q = some (.file content) ↔ t.node? q = some (.file content) := by
  rcases h q with hsame | ⟨hnone, hmade⟩ | ⟨hwritten, -⟩
  · rw [hsame]
  · rw [hnone, hmade]
    exact iff_of_false nofun nofun
  · exact absurd hwritten hq

theorem WritesOnly.isSome_node? (h : WritesOnly written t t') (hq : (t.node? q).isSome = true) :
    (t'.node? q).isSome = true := by
  rcases h q with hsame | ⟨-, hmade⟩ | ⟨-, -, content, hcontent⟩
  · rwa [hsame]
  · rw [hmade, Option.isSome_some]
  · rw [hcontent, Option.isSome_some]

theorem WritesOnly.walk (h : WritesOnly written t t') (hwalk : t.walk here parts = .ok q) :
    t'.walk here parts = .ok q := by
  induction parts generalizing here with
  | nil => exact hwalk
  | cons part parts ih =>
    obtain ⟨hhere, hname, hrest⟩ := walk_cons_eq_ok_iff.mp hwalk
    exact walk_cons_eq_ok_iff.mpr
      ⟨h.node?_directory hhere, fun hpart => (hname hpart).imp_right h.isSome_node?, ih hrest⟩

/-! ## The operations -/

theorem ne_nil_of_node?_ne (h : t.node? q ≠ some .directory) : q ≠ [] := by
  rintro rfl
  exact h rfl

theorem writesOnly_put_file (content : Content) (h : t.node? q ≠ some .directory) (hq : written q) :
    WritesOnly written t (t.put q (.file content)) := by
  intro place
  rw [node?_put _ _ _ _ (ne_nil_of_node?_ne h)]
  split
  next heq =>
    subst heq
    exact .inr (.inr ⟨hq, h, content, rfl⟩)
  next => exact .inl rfl

theorem writesOnly_put_directory (h : t.node? q = none) :
    WritesOnly written t (t.put q .directory) := by
  intro place
  rw [node?_put _ _ _ _ (ne_nil_of_node?_ne (by rw [h]; nofun))]
  split
  next heq =>
    subst heq
    exact .inr (.inl ⟨h, rfl⟩)
  next => exact .inl rfl

theorem writesOnly_of_write {content : Content} (h : t.write cwd p content = .ok t') :
    WritesOnly (· = p.place cwd) t t' := by
  unfold write at h
  split at h
  · cases h
  next hplace =>
    cases h
    obtain ⟨_, _, _, _, _, _, _, hfile⟩ := of_filePlace hplace
    exact writesOnly_put_file content hfile (eq_place_of_filePlace hplace)

theorem writesOnly_of_makeDirectory (h : t.makeDirectory cwd p = .ok t') :
    WritesOnly written t t' := by
  unfold makeDirectory at h
  split at h
  · cases h
  · cases h
  · dsimp only at h
    split at h
    · cases h
    · split at h
      · cases h
      · split at h
        · cases h
        next hnone =>
          cases h
          exact writesOnly_put_directory (Option.not_isSome_iff_eq_none.mp hnone)

/-- The tree that is there when directories were made, or when one of them could not be. -/
def left : Except (FileFault × FileTree) FileTree → FileTree
  | .ok t => t
  | .error (_, t) => t

theorem writesOnly_makeChain (t : FileTree) (cwd : Place) (dirs : List Path) :
    WritesOnly written t (left (t.makeChain cwd dirs)) := by
  induction dirs with
  | nil => exact .refl
  | cons dir dirs ih =>
    rw [makeChain]
    split
    · exact .refl
    split
    next hmade => exact writesOnly_of_makeDirectory hmade
    -- the parent is missing: the directories above are made first, then this one once more
    · split
      next hchain => rwa [hchain] at ih
      next hchain =>
        rw [hchain] at ih
        split
        next hmade => exact ih.trans (writesOnly_of_makeDirectory hmade)
        · split
          · exact ih
          · exact ih
    · split
      · exact .refl
      · exact .refl

theorem writesOnly_of_copy {source target : Path} (h : t.copy cwd source target = .ok t') :
    WritesOnly (· = target.place cwd) t t' := by
  unfold copy at h
  split at h
  · split at h
    · cases h
    next hplace =>
      have hwritten := eq_place_of_filePlace hplace
      obtain ⟨_, _, _, _, _, _, _, hfile⟩ := of_filePlace hplace
      split at h <;> cases h <;> exact writesOnly_put_file _ hfile hwritten
  · cases h
  · cases h

/-! ## Reading what was written -/

theorem read_eq_ok_iff {content : Content} : t.read cwd p = .ok content ↔
    ∃ q, t.locate cwd p = .ok q ∧ t.node? q = some (.file content) := by
  rw [read]
  cases t.locate cwd p with
  | error fault => simp
  | ok q =>
    simp only [Except.ok.injEq, exists_eq_left']
    split <;> simp_all

theorem eq_place_of_locate (h : t.locate cwd p = .ok q) : q = p.place cwd := by
  rw [locate] at h
  split at h
  · cases h
  · exact eq_foldl_of_walk h

theorem isFile_iff : t.isFile cwd p = true ↔ ∃ content, t.read cwd p = .ok content := by
  simp only [read_eq_ok_iff, isFile, find?]
  cases t.locate cwd p with
  | error fault => simp
  | ok q =>
    cases hnode : t.node? q with
    | none => simp [hnode]
    | some node => cases node <;> simp [hnode]

/-- Two paths of one place name the same file. -/
theorem content_eq_of_place_eq {p' : Path} {content content' : Content}
    (h : t.read cwd p = .ok content) (h' : t.read cwd p' = .ok content')
    (hplace : p.place cwd = p'.place cwd) : content = content' := by
  obtain ⟨q, hlocate, hfile⟩ := read_eq_ok_iff.mp h
  obtain ⟨q', hlocate', hfile'⟩ := read_eq_ok_iff.mp h'
  rw [eq_place_of_locate hlocate, hplace, ← eq_place_of_locate hlocate', hfile'] at hfile
  cases hfile
  rfl

/-- A file is still read at a path whose place is not among those that were written. -/
theorem WritesOnly.read {content : Content} (h : WritesOnly written t t')
    (hread : t.read cwd p = .ok content) (hp : ¬ written (p.place cwd)) :
    t'.read cwd p = .ok content := by
  obtain ⟨q, hlocate, hfile⟩ := read_eq_ok_iff.mp hread
  obtain rfl := eq_place_of_locate hlocate
  refine read_eq_ok_iff.mpr ⟨p.place cwd, ?_, ?_⟩
  · rw [locate] at hlocate ⊢
    cases hfault : p.fault? with
    | some fault =>
      rw [hfault] at hlocate
      cases hlocate
    | none =>
      rw [hfault] at hlocate
      exact h.walk hlocate
  · exact (h.node?_file_iff hp).mpr hfile

/-- The path of a file has no empty parts at its end. -/
theorem solidParts_eq_parts (hempty : p.text ≠ "") (h : p.text.toList.getLast? ≠ some '/') :
    solidParts p = p.parts := by
  obtain ⟨idle, hparts, hidle⟩ := exists_parts_eq p
  rcases List.eq_nil_or_concat' idle with rfl | ⟨idle, part, rfl⟩
  · rw [hparts, List.append_nil]
  obtain rfl : part = [] := hidle part (by simp)
  exfalso
  rw [← Path.root_append_body, ← Path.joinWith_parts, hparts, ← List.append_assoc] at h
  by_cases hfront : solidParts p ++ idle = []
  · -- the text is the root alone, and there is a slash in it
    have hbody : p.body = [] := by rw [← Path.joinWith_parts, hparts, ← List.append_assoc, hfront]; rfl
    have htext := p.root_append_body
    rw [hfront] at h
    cases habsolute : p.isAbsolute with
    | true =>
      rw [habsolute] at h
      exact h rfl
    | false =>
      rw [habsolute, hbody] at htext
      exact hempty (String.toList_eq_nil_iff.mp htext.symm)
  · rw [joinWith_concat hfront, List.append_nil, ← List.append_assoc, List.getLast?_concat] at h
    exact h rfl

theorem text_ne_empty_of_fault? (h : p.fault? = none) : p.text ≠ "" := by
  unfold Path.fault? at h
  split at h
  · cases h
  · assumption

/-- A file that was written is found by the same path. -/
theorem locate_put_of_filePlace (content : Content) (h : t.filePlace cwd p = .ok q) :
    (t.put q (.file content)).locate cwd p = .ok q := by
  obtain ⟨here, last, hparent, rfl, hdots, hslash, hlong, hfile⟩ := of_filePlace h
  obtain ⟨hfault, hwalk, hhere, hne, hsolid⟩ := of_parentOf hparent
  have hparts := solidParts_eq_parts (text_ne_empty_of_fault? hfault) hslash
  have hname := isName_of_isDots hne hdots
  have hwrites : WritesOnly (fun _ => True) t (t.put (here ++ [String.ofList last]) (.file content)) :=
    writesOnly_put_file content hfile trivial
  have hnext : (t.put (here ++ [String.ofList last]) (.file content)).node?
      (Path.go here last) = some (.file content) := by
    rw [go_of_isName hname, node?_put _ _ _ _ (ne_nil_of_node?_ne hfile), if_pos rfl]
  have hlast : (t.put (here ++ [String.ofList last]) (.file content)).walk here [last] =
      .ok (here ++ [String.ofList last]) :=
    walk_cons_eq_ok_iff.mpr ⟨hwrites.node?_directory hhere,
      fun _ => ⟨hlong, by rw [hnext, Option.isSome_some]⟩, by rw [go_of_isName hname]; rfl⟩
  rw [locate, hfault, ← hparts, hsolid]
  exact walk_append (hwrites.walk hwalk) hlast

theorem read_put_of_filePlace (content : Content) (h : t.filePlace cwd p = .ok q) :
    (t.put q (.file content)).read cwd p = .ok content := by
  obtain ⟨_, _, _, _, _, _, _, hfile⟩ := of_filePlace h
  simp only [read, locate_put_of_filePlace content h, node?_put _ _ _ _ (ne_nil_of_node?_ne hfile),
    if_true]

/-- A text that was written is read back. -/
theorem readText_writeText {text : String} (h : t.writeText cwd p text = .ok t') :
    t'.readText cwd p = .ok text := by
  rw [writeText, write] at h
  split at h
  · cases h
  next place hplace =>
    cases h
    rw [readText, read_put_of_filePlace _ hplace]
    dsimp only
    rw [Utf8.decode_encode, String.ofList_toList]
    rfl

/-- A copy that is not made over the file itself holds what the file held. -/
theorem read_copy {source target : Path} {content : Content}
    (h : t.copy cwd source target = .ok t') (hne : source.place cwd ≠ target.place cwd)
    (hread : t.read cwd source = .ok content) : t'.read cwd target = .ok content := by
  obtain ⟨origin, hlocate, -⟩ := read_eq_ok_iff.mp hread
  simp only [copy, hlocate, hread] at h
  split at h
  · cases h
  next place hplace =>
    have horigin := eq_place_of_locate hlocate
    have htarget := eq_place_of_filePlace hplace
    rw [if_neg fun heq => hne (by rw [← horigin, ← htarget, heq])] at h
    cases h
    exact read_put_of_filePlace content hplace

theorem contains_put_of_filePlace (content : Content) (h : t.filePlace cwd p = .ok q) :
    (t.put q (.file content)).contains cwd p = true := by
  obtain ⟨_, _, _, _, _, _, _, hfile⟩ := of_filePlace h
  simp only [contains, find?, locate_put_of_filePlace content h,
    node?_put _ _ _ _ (ne_nil_of_node?_ne hfile), if_true, Option.isSome_some]

end FileTree

end JniLink
