import JniLink.File.Path
import JniLink.Proofs.Text.Split

/-!
# The directories above a path

A path loses one part at a time until it has none, and its text gets shorter each time. So the list of
the directories above it is complete: it ends where no part is left, and not before.
-/

namespace JniLink.Path

open JniLink.Text

/-- The directories that are reached from a path by taking parts off its end, one at a time, until
there is none to be taken off. -/
inductive Ascends : Path → List Path → Prop
  | top {p : Path} (h : p.parent? = none) : Ascends p [p]
  | up {p q : Path} {dirs : List Path} (h : p.parent? = some q) (hrest : Ascends q dirs) :
      Ascends p (p :: dirs)

/-! ## Parts and lengths -/

theorem dropIdle_suffix (absolute : Bool) (parts : List (List Char)) :
    dropIdle absolute parts <:+ parts := by
  fun_induction dropIdle absolute parts with
  | case1 => exact List.suffix_refl []
  | case2 part => exact List.nil_suffix
  | case3 part => exact List.suffix_refl [part]
  | case4 part rest _ _ ih => exact ih.trans (List.suffix_cons part rest)
  | case5 part rest => exact List.suffix_refl (part :: rest)

/-- The text of a path behind the root. -/
def body (p : Path) : List Char := if p.isAbsolute then p.text.toList.drop 1 else p.text.toList

theorem joinWith_parts (p : Path) : joinWith ['/'] p.parts = p.body := by
  have hsame : ∀ c ∈ p.body, (if c == '/' then '/' else c) = id c := by
    intro c _
    split
    next hc => exact (beq_iff_eq.mp hc).symm
    next => rfl
  exact (joinWith_splitWhere (· == '/') '/' p.body).trans
    ((List.map_congr_left hsame).trans (List.map_id _))

/-- A path without a slash is relative, and is its only part. -/
theorem isAbsolute_of_notMem {p : Path} (h : '/' ∉ p.text.toList) : p.isAbsolute = false := by
  rw [isAbsolute, beq_eq_false_iff_ne]
  exact fun hhead => h (List.mem_of_mem_head? hhead)

theorem parts_of_notMem {p : Path} (h : '/' ∉ p.text.toList) : p.parts = [p.text.toList] := by
  rw [parts, isAbsolute_of_notMem h]
  exact splitWhere_eq_singleton fun c hc => beq_eq_false_iff_ne.mpr (ne_of_mem_of_not_mem hc h)

/-- What stands in front of the parts. -/
def root (absolute : Bool) : List Char := if absolute then ['/'] else []

theorem root_append_body (p : Path) : root p.isAbsolute ++ p.body = p.text.toList := by
  rw [body, root]
  split
  next habsolute =>
    have hhead : p.text.toList.head? = some '/' := beq_iff_eq.mp habsolute
    obtain ⟨rest, htext⟩ := List.head?_eq_some_iff.mp hhead
    rw [htext, List.drop_one, List.tail_cons, List.singleton_append]
  next => rfl

theorem length_text (p : Path) :
    p.text.length = (root p.isAbsolute).length + (joinWith ['/'] p.parts).length := by
  rw [joinWith_parts, ← List.length_append, root_append_body, String.length_toList]

theorem length_ofParts (absolute : Bool) (parts : List (List Char)) :
    (ofParts absolute parts).text.length = (root absolute).length + (joinWith ['/'] parts).length := by
  rw [ofParts, String.length_ofList, List.length_append, root]

/-- Parts in front of others are shorter than all of them together: at least one slash is gone. -/
theorem length_joinWith_cons_lt {part : List Char} {front back : List (List Char)} (hback : back ≠ []) :
    (joinWith ['/'] (part :: front)).length < (joinWith ['/'] (part :: (front ++ back))).length := by
  induction front generalizing part with
  | nil =>
    obtain ⟨part', back, rfl⟩ := List.exists_cons_of_ne_nil hback
    change part.length < _
    rw [List.nil_append, joinWith_cons_cons, List.length_append, List.length_append,
      List.length_singleton]
    omega
  | cons part' front ih =>
    have hshorter := @ih part'
    rw [List.cons_append, joinWith_cons_cons, joinWith_cons_cons]
    simp only [List.length_append]
    omega

theorem length_joinWith_lt {front back : List (List Char)} (hback : back ≠ [])
    (h : joinWith ['/'] (front ++ back) ≠ []) :
    (joinWith ['/'] front).length < (joinWith ['/'] (front ++ back)).length := by
  cases front with
  | nil => exact List.length_pos_iff.mpr h
  | cons part front => exact length_joinWith_cons_lt hback

/-! ## Taking a part off -/

/-- A path has parts to be taken off only if its text goes on behind the root. -/
theorem body_ne_nil {p : Path} {name : List Char} {rest : List (List Char)}
    (h : dropIdle p.isAbsolute p.parts.reverse = name :: rest) : p.body ≠ [] := by
  intro hbody
  have hparts : p.parts = [[]] := by
    change splitWhere (· == '/') p.body = [[]]
    rw [hbody]
    rfl
  rw [hparts] at h
  change dropIdle p.isAbsolute [[]] = name :: rest at h
  rw [dropIdle, if_pos (.inl rfl)] at h
  cases h

theorem length_parent?_lt {p q : Path} (h : p.parent? = some q) : q.text.length < p.text.length := by
  unfold parent? at h
  split at h
  next => cases h
  next name rest hparts =>
    cases h
    obtain ⟨idle, hidle⟩ := hparts ▸ dropIdle_suffix p.isAbsolute p.parts.reverse
    obtain ⟨above, habove⟩ := dropIdle_suffix p.isAbsolute rest
    have hsplit : p.parts = (dropIdle p.isAbsolute rest).reverse ++ (idle ++ name :: above).reverse := by
      rw [← List.reverse_append, List.append_assoc, List.cons_append, habove, hidle,
        List.reverse_reverse]
    have hback : (idle ++ name :: above).reverse ≠ [] := by simp
    have hbody : joinWith ['/'] p.parts ≠ [] := (joinWith_parts p).symm ▸ body_ne_nil hparts
    rw [length_ofParts, length_text]
    rw [hsplit] at hbody ⊢
    exact Nat.add_lt_add_left (length_joinWith_lt hback hbody) _

theorem ascends_ancestors_go {bound : Nat} {p : Path} (h : p.text.length ≤ bound) :
    p.Ascends (ancestors.go bound p) := by
  induction bound generalizing p with
  | zero =>
    refine .top (Option.eq_none_iff_forall_ne_some.mpr fun q hq => ?_)
    have := length_parent?_lt hq
    omega
  | succ bound ih =>
    rw [ancestors.go]
    cases hparent : p.parent? with
    | none => exact .top hparent
    | some q =>
      have := length_parent?_lt hparent
      exact .up hparent (ih (by omega))

theorem ascends_ancestors (p : Path) : p.Ascends p.ancestors :=
  ascends_ancestors_go (Nat.le_refl _)

end JniLink.Path
