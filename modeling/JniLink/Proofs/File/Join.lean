import JniLink.Proofs.File.Tree

/-!
# Places of joined paths

A name that is joined to a path leads one step further from the place of that path, whether or not a
slash has to be put between the two. The slash at the root of an absolute path stands behind an empty
part, which leads nowhere, so that the text of a path can be followed from its first character on.
-/

namespace JniLink.Path

open JniLink.Text

/-- Follows the parts of a text from a place. -/
def follow (here : Place) (t : List Char) : Place :=
  (splitWhere (· == '/') t).foldl go here

variable {here cwd : Place} {name : String}

theorem follow_append_slash (s t : List Char) :
    follow here (s ++ '/' :: t) = follow (follow here s) t := by
  rw [follow, splitWhere_append_cons (p := (· == '/')) rfl, List.foldl_append]
  rfl

theorem follow_of_notMem {t : List Char} (h : '/' ∉ t) : follow here t = go here t := by
  have hsplit : splitWhere (· == '/') t = [t] :=
    splitWhere_eq_singleton fun c hc => beq_eq_false_iff_ne.mpr (ne_of_mem_of_not_mem hc h)
  rw [follow, hsplit]
  rfl

/-- The place of a path is found by following its whole text. -/
theorem place_eq_follow (p : Path) : p.place cwd = follow (FileTree.base cwd p) p.text.toList := by
  have htext := p.root_append_body
  cases habsolute : p.isAbsolute with
  | false =>
    rw [habsolute] at htext
    rw [← htext]
    rfl
  | true =>
    have hbase : FileTree.base cwd p = [] := if_pos habsolute
    rw [habsolute] at htext
    rw [← htext, hbase]
    change p.parts.foldl go (FileTree.base cwd p) = follow [] ([] ++ '/' :: p.body)
    rw [hbase, follow_append_slash]
    rfl

theorem base_eq_of_append {p q : Path} {t : List Char} (hne : p.text.toList ≠ [])
    (h : q.text.toList = p.text.toList ++ t) : FileTree.base cwd q = FileTree.base cwd p := by
  have habsolute : q.isAbsolute = p.isAbsolute := by
    rw [isAbsolute, isAbsolute, h, List.head?_append_of_ne_nil _ hne]
  rw [FileTree.base, FileTree.base, habsolute]

/-- A name joined to a path leads one step further from its place. -/
theorem place_join (dir : Path) (h : '/' ∉ name.toList) :
    (dir / name).place cwd = go (dir.place cwd) name.toList := by
  have hrelative : Path.isAbsolute ⟨name⟩ = false := isAbsolute_of_notMem h
  change (dir.join ⟨name⟩).place cwd = _
  rw [join, if_neg (Bool.eq_false_iff.mp hrelative), place_eq_follow dir, ← follow_of_notMem h]
  dsimp only
  by_cases hempty : dir.text.toList = []
  · have hdir : dir.text = "" := String.toList_eq_nil_iff.mp hempty
    have hbase : FileTree.base cwd dir = cwd := by
      rw [FileTree.base, isAbsolute, hempty]
      rfl
    rw [if_pos (.inl hempty), hdir, String.empty_append, place_eq_follow, hbase, FileTree.base,
      hrelative]
    rfl
  by_cases hslash : dir.text.toList.getLast? = some '/'
  · rw [if_pos (.inr hslash), place_eq_follow,
      base_eq_of_append hempty String.toList_append, String.toList_append]
    obtain ⟨s, hs⟩ := List.getLast?_eq_some_iff.mp hslash
    rw [hs, List.append_assoc, List.singleton_append, follow_append_slash, follow_append_slash]
    rfl
  · have htext : (dir.text ++ "/" ++ name).toList = dir.text.toList ++ '/' :: name.toList := by
      rw [String.toList_append, String.toList_append, List.append_assoc]
      rfl
    rw [if_neg (not_or.mpr ⟨hempty, hslash⟩), place_eq_follow, base_eq_of_append hempty htext,
      htext, follow_append_slash]

theorem place_join_of_isName (dir : Path) (h : '/' ∉ name.toList)
    (hname : FileTree.IsName name.toList) :
    (dir / name).place cwd = dir.place cwd ++ [name] := by
  rw [place_join dir h, FileTree.go_of_isName hname, String.ofList_toList]

end JniLink.Path
