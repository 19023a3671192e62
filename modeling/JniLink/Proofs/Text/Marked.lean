import JniLink.Proofs.Text.Block

/-!
# Where a marked block stands

The first marked block of a text has a text before it and a text behind it, and `replaceBlock?` looks
at nothing else: whatever is put in place of the block comes between the two, less a last line of
blanks before it and the rest of the line behind it (`replaceBlock?_eq_map`).

What is found there depends on the text up to the block alone. An occurrence is the first one if no
other begins before it (`cut?_eq_some_iff`), whatever follows.
-/

namespace JniLink.Text

/-! ## The first occurrence, by what stands before it -/

section Cut

variable {pat t x y : List Char}

theorem append_of_cut? (h : cut? pat t = some (x, y)) : t = x ++ (pat ++ y) := by
  induction t generalizing x with
  | nil =>
    rw [cut?] at h
    split at h
    next hnil =>
      cases h
      rw [hnil]
      rfl
    next => cases h
  | cons c t ih =>
    rw [cut?] at h
    cases hstart : stripStart? pat (c :: t) with
    | some rest =>
      rw [hstart] at h
      cases h
      rw [stripStart?_eq_some_iff] at hstart
      exact hstart
    | none =>
      rw [hstart] at h
      obtain ⟨⟨x', y'⟩, hcut, heq⟩ := Option.map_eq_some_iff.mp h
      cases heq
      rw [ih hcut, List.cons_append]

theorem cut?_self_append (pat y : List Char) : cut? pat (pat ++ y) = some ([], y) := by
  have hnil : Apart pat [] := trivial
  exact cut?_append_self hnil y

theorem cut?_append_of_not_isInfix (h : ¬ pat <:+: x ++ pat.dropLast) (y : List Char) :
    cut? pat (x ++ (pat ++ y)) = some (x, y) := by
  induction x with
  | nil => exact cut?_self_append pat y
  | cons c x ih =>
    rw [List.cons_append, List.infix_cons_iff, not_or] at h
    have hstart : stripStart? pat (c :: (x ++ (pat ++ y))) = none := by
      rw [Option.eq_none_iff_forall_ne_some]
      intro rest hrest
      rw [stripStart?_eq_some_iff] at hrest
      have hword : pat <+: c :: (x ++ (pat ++ y)) := ⟨rest, hrest.symm⟩
      have hfront : c :: (x ++ pat.dropLast) <+: c :: (x ++ (pat ++ y)) := by
        rw [List.cons_prefix_cons, List.prefix_append_right_inj]
        exact ⟨rfl, (List.dropLast_prefix pat).trans (List.prefix_append pat y)⟩
      refine h.1 (List.prefix_of_prefix_length_le hword hfront ?_)
      rw [List.length_cons, List.length_append, List.length_dropLast]
      omega
    rw [List.cons_append, cut?, hstart, ih h.2]
    rfl

theorem not_isInfix_of_cut? (hne : pat ≠ []) (h : cut? pat t = some (x, y)) :
    ¬ pat <:+: x ++ pat.dropLast := by
  induction t generalizing x with
  | nil =>
    rw [cut?, if_neg hne] at h
    cases h
  | cons c t ih =>
    have hcut := append_of_cut? h
    rw [cut?] at h
    cases hstart : stripStart? pat (c :: t) with
    | some rest =>
      rw [hstart] at h
      cases h
      intro hin
      have hlength := hin.length_le
      have hpos := List.length_pos_iff.mpr hne
      rw [List.nil_append, List.length_dropLast] at hlength
      omega
    | none =>
      rw [hstart] at h
      obtain ⟨⟨x', y'⟩, hcut', heq⟩ := Option.map_eq_some_iff.mp h
      cases heq
      rw [List.cons_append, List.infix_cons_iff, not_or]
      refine ⟨fun hprefix => ?_, ih hcut'⟩
      have hfront : c :: (x' ++ pat.dropLast) <+: c :: t := by
        rw [hcut, List.cons_append, List.cons_prefix_cons, List.prefix_append_right_inj]
        exact ⟨rfl, (List.dropLast_prefix pat).trans (List.prefix_append pat y)⟩
      obtain ⟨rest, hrest⟩ := hprefix.trans hfront
      rw [stripStart?_eq_some_iff.mpr hrest.symm] at hstart
      cases hstart

theorem cut?_eq_some_iff (hne : pat ≠ []) :
    cut? pat t = some (x, y) ↔ t = x ++ (pat ++ y) ∧ ¬ pat <:+: x ++ pat.dropLast := by
  constructor
  · intro h
    exact ⟨append_of_cut? h, not_isInfix_of_cut? hne h⟩
  · rintro ⟨rfl, h⟩
    exact cut?_append_of_not_isInfix h y

theorem not_isInfix_front_of_cut? (hne : pat ≠ []) (h : cut? pat t = some (x, y)) :
    ¬ pat <:+: x :=
  fun hin => not_isInfix_of_cut? hne h (hin.trans (List.prefix_append x _).isInfix)

theorem exists_cut?_of_isInfix (h : pat <:+: t) : ∃ x y, cut? pat t = some (x, y) := by
  induction t with
  | nil =>
    rw [List.infix_nil] at h
    exact ⟨[], [], by rw [cut?, if_pos h]⟩
  | cons c t ih =>
    rw [cut?]
    cases hstart : stripStart? pat (c :: t) with
    | some rest => exact ⟨[], rest, rfl⟩
    | none =>
      rcases List.infix_cons_iff.mp h with ⟨rest, hrest⟩ | h
      · rw [stripStart?_eq_some_iff.mpr hrest.symm] at hstart
        cases hstart
      · obtain ⟨x, y, hcut⟩ := ih h
        exact ⟨c :: x, y, by rw [hcut]; rfl⟩

/-- No other occurrence has more text behind it than the first one. -/
theorem suffix_of_cut? {x' y' : List Char} (h : cut? pat t = some (x, y))
    (ht : t = x' ++ (pat ++ y')) : y' <:+ y := by
  induction t generalizing x x' with
  | nil =>
    obtain ⟨-, htail⟩ := List.append_eq_nil_iff.mp ht.symm
    rw [(List.append_eq_nil_iff.mp htail).2]
    exact List.nil_suffix
  | cons c t ih =>
    rw [cut?] at h
    cases hstart : stripStart? pat (c :: t) with
    | some rest =>
      rw [hstart] at h
      cases h
      rw [stripStart?_eq_some_iff] at hstart
      have hlength := congrArg List.length (hstart.symm.trans ht)
      simp only [List.length_append] at hlength
      have hy : y <:+ c :: t := ⟨pat, hstart.symm⟩
      have hy' : y' <:+ c :: t := ⟨x' ++ pat, by rw [ht, List.append_assoc]⟩
      exact List.suffix_of_suffix_length_le hy' hy (by omega)
    | none =>
      rw [hstart] at h
      obtain ⟨⟨x'', y''⟩, hcut, heq⟩ := Option.map_eq_some_iff.mp h
      cases heq
      cases x' with
      | nil =>
        rw [List.nil_append] at ht
        rw [stripStart?_eq_some_iff.mpr ht] at hstart
        cases hstart
      | cons d x' => exact ih hcut (List.cons.inj ht).2

/-- The text behind the first occurrence has no part in finding it. -/
theorem cut?_append_right (hne : pat ≠ []) (h : cut? pat t = some (x, y)) (s : List Char) :
    cut? pat (t ++ s) = some (x, y ++ s) := by
  obtain ⟨rfl, hfirst⟩ := (cut?_eq_some_iff hne).mp h
  rw [List.append_assoc, List.append_assoc]
  exact cut?_append_of_not_isInfix hfirst (y ++ s)

/-- The first occurrence has all of a text apart from the word before it. -/
theorem prefix_of_cut? {piece : List Char} (hpiece : Apart pat piece)
    (h : cut? pat (piece ++ t) = some (x, y)) : piece <+: x := by
  rw [cut?_append hpiece, Option.map_eq_some_iff] at h
  obtain ⟨⟨x', y'⟩, -, heq⟩ := h
  cases heq
  exact List.prefix_append piece x'

/-- A word whose first letter is not repeated cannot begin in what stands before it. -/
theorem cut?_append_of_head_notMem {d : Char} {word : List Char} (hd : d ∉ word)
    (h : ¬ d :: word <:+: x) (y : List Char) :
    cut? (d :: word) (x ++ (d :: word ++ y)) = some (x, y) := by
  induction x with
  | nil => exact cut?_self_append (d :: word) y
  | cons c x ih =>
    rw [List.infix_cons_iff, not_or] at h
    have hstart : stripStart? (d :: word) (c :: (x ++ (d :: word ++ y))) = none := by
      rw [Option.eq_none_iff_forall_ne_some]
      intro rest hrest
      rw [stripStart?_eq_some_iff] at hrest
      have hword : d :: word <+: c :: x ++ (d :: word ++ y) := ⟨rest, hrest.symm⟩
      rcases List.prefix_or_prefix_of_prefix hword (List.prefix_append (c :: x) _) with hlong | hshort
      · exact h.1 hlong
      -- the word would go on behind `x`, where its first letter stands
      · obtain ⟨tail, htail⟩ := hshort
        rw [List.cons_append, List.cons.injEq] at htail
        obtain ⟨rfl, rfl⟩ := htail
        rw [List.cons_append, List.cons_prefix_cons, List.prefix_append_right_inj] at hword
        cases tail with
        | nil => exact h.1 (by rw [List.append_nil])
        | cons e tail =>
          obtain rfl := (List.cons_prefix_cons.mp hword.2).1
          exact hd (List.mem_append_right x List.mem_cons_self)
    rw [List.cons_append, cut?, hstart, ih h.2]
    rfl

/-- If the first occurrence is the last thing in a text but for one other character, it is the only
one. -/
theorem eq_of_cut?_concat {m : Char} {x' y' : List Char} (hm : m ∉ pat) (hne : pat ≠ [])
    (h : cut? pat t = some (x, [m])) (ht : t = x' ++ (pat ++ y')) : y' = [m] := by
  rcases List.suffix_cons_iff.mp (suffix_of_cut? h ht) with heq | hnil
  · exact heq
  -- the occurrence would take `m` in, with which the text ends
  · obtain rfl := List.suffix_nil.mp hnil
    have hlast := congrArg List.getLast? ((append_of_cut? h).symm.trans ht)
    rw [← List.append_assoc, List.getLast?_concat, List.append_nil,
      List.getLast?_append_of_ne_nil x' hne] at hlast
    exact absurd (List.mem_of_getLast? hlast.symm) hm

end Cut

theorem not_isInfix_concat {word t : List Char} {m : Char} (hm : m ∉ word) (hne : word ≠ [])
    (h : ¬ word <:+: t) : ¬ word <:+: t ++ [m] :=
  (apart_concat hm h).not_isInfix hne

/-- A word that does not stand in a text does not stand in it behind a text apart from the word. -/
theorem Apart.not_isInfix_append {word piece t : List Char} (h : Apart word piece)
    (ht : ¬ word <:+: t) : ¬ word <:+: piece ++ t := by
  induction piece with
  | nil => exact ht
  | cons c piece ih =>
    rw [List.cons_append, List.infix_cons_iff, not_or]
    refine ⟨?_, ih h.2.2⟩
    rintro ⟨rest, hrest⟩
    have hstart : stripStart? word (c :: (piece ++ t)) = none := stripStart?_of_apart h t
    rw [stripStart?_eq_some_iff.mpr hrest.symm] at hstart
    cases hstart

/-! ## The last line -/

/-- Only blanks stand in the last line. -/
def EndsBlank (t : List Char) : Prop :=
  ∀ c ∈ lastLine t, isBlank c = true

instance decidableEndsBlank (t : List Char) : Decidable (EndsBlank t) :=
  inferInstanceAs (Decidable (∀ c ∈ lastLine t, isBlank c = true))

theorem dropBlankLine_of_endsBlank {t : List Char} (h : EndsBlank t) :
    dropBlankLine t = wholeLines t :=
  if_pos (trim_eq_nil_iff.mpr h)

theorem dropBlankLine_of_not_endsBlank {t : List Char} (h : ¬ EndsBlank t) :
    dropBlankLine t = t :=
  if_neg fun htrim => h (trim_eq_nil_iff.mp htrim)

theorem lastLine_wholeLines (t : List Char) : lastLine (wholeLines t) = [] := by
  rw [lastLine, wholeLines, List.reverse_reverse, List.reverse_eq_nil_iff]
  cases hdrop : t.reverse.dropWhile (· != '\n') with
  | nil => rfl
  | cons c rest =>
    rw [eq_of_dropWhile_ne hdrop]
    exact List.takeWhile_cons_of_neg (by simp)

theorem dropBlankLine_of_lastLine_eq_nil {t : List Char} (h : lastLine t = []) :
    dropBlankLine t = t := by
  have hblank : EndsBlank t := by
    intro c hc
    rw [h] at hc
    cases hc
  rw [dropBlankLine_of_endsBlank hblank, wholeLines_of_lastLine_eq_nil h]

/-- What is left ends with a whole line, or with a line that is not blank. -/
theorem lastLine_dropBlankLine_eq_nil_iff {t : List Char} :
    lastLine (dropBlankLine t) = [] ↔ EndsBlank t := by
  by_cases h : EndsBlank t
  · rw [dropBlankLine_of_endsBlank h, lastLine_wholeLines, eq_self_iff_true, true_iff]
    exact h
  · rw [dropBlankLine_of_not_endsBlank h, iff_false_right h]
    intro hnil
    apply h
    intro c hc
    rw [hnil] at hc
    cases hc

theorem dropBlankLine_dropBlankLine (t : List Char) :
    dropBlankLine (dropBlankLine t) = dropBlankLine t := by
  by_cases h : EndsBlank t
  · exact dropBlankLine_of_lastLine_eq_nil (lastLine_dropBlankLine_eq_nil_iff.mpr h)
  · rw [dropBlankLine_of_not_endsBlank h, dropBlankLine_of_not_endsBlank h]

/-- Blanks at the end go together with the blanks before them, and stay with anything else. -/
theorem endsBlank_append {s : List Char} (hblank : ∀ c ∈ s, isBlank c = true) (hfeed : '\n' ∉ s)
    {t : List Char} : EndsBlank (t ++ s) ↔ EndsBlank t := by
  unfold EndsBlank
  rw [lastLine_append hfeed, List.forall_mem_append]
  exact and_iff_left hblank

theorem dropBlankLine_isPrefix (t : List Char) : dropBlankLine t <+: t := by
  by_cases h : EndsBlank t
  · rw [dropBlankLine_of_endsBlank h]
    exact ⟨lastLine t, wholeLines_append_lastLine t⟩
  · rw [dropBlankLine_of_not_endsBlank h]

theorem not_isInfix_dropBlankLine {pat t x y : List Char} (hne : pat ≠ [])
    (h : cut? pat t = some (x, y)) : ¬ pat <:+: dropBlankLine x := by
  intro hin
  apply not_isInfix_front_of_cut? hne h
  exact hin.trans (dropBlankLine_isPrefix x).isInfix

/-- What ends with a character that is not blank is kept. -/
theorem prefix_dropBlankLine {t front : List Char} {c : Char} (h : front ++ [c] <+: t)
    (hc : isBlank c = false) : front ++ [c] <+: dropBlankLine t := by
  by_cases hblank : EndsBlank t
  · rw [dropBlankLine_of_endsBlank hblank]
    obtain ⟨rest, hrest⟩ := h
    rw [← wholeLines_append_lastLine t] at hrest
    rcases List.append_eq_append_iff.mp hrest with ⟨s, hs, -⟩ | ⟨s, hs, hlast⟩
    · exact ⟨s, hs.symm⟩
    · rcases List.eq_nil_or_concat' s with rfl | ⟨s, d, rfl⟩
      · rw [List.append_nil] at hs
        rw [hs]
      · rw [← List.append_assoc] at hs
        cases (List.append_inj' hs rfl).2
        rw [hblank c (by simp [hlast])] at hc
        cases hc
  · rwa [dropBlankLine_of_not_endsBlank hblank]

/-! ## The first marked block -/

/-- The text before the first marked block and the text behind it. -/
def markedBlock? (opening closing t : List Char) : Option (List Char × List Char) := do
  let (before, _) ← cut? opening t
  let (_, after) ← cut? closing (t.drop before.length)
  return (before, after)

section Marked

variable {opening closing t before after : List Char}

theorem replaceBlock?_eq_map (block : List Char) :
    replaceBlock? opening closing block t = (markedBlock? opening closing t).map
      fun found => dropBlankLine found.1 ++ (block ++ afterLine found.2) := by
  rw [replaceBlock?, markedBlock?]
  cases cut? opening t with
  | none => rfl
  | some cut =>
    simp only [Option.bind_eq_bind, Option.bind_some]
    cases cut? closing (t.drop cut.1.length) with
    | none => rfl
    | some found => simp only [Option.bind_some, Option.pure_def, Option.map_some, List.append_assoc]

theorem markedBlock?_eq_some_iff : markedBlock? opening closing t = some (before, after) ↔
    ∃ r s, cut? opening t = some (before, r) ∧ cut? closing (opening ++ r) = some (s, after) := by
  simp only [markedBlock?, Option.bind_eq_bind, Option.bind_eq_some_iff, Option.pure_def,
    Option.some.injEq, Prod.mk.injEq, Prod.exists]
  constructor
  · rintro ⟨front, r, hcut, s, rest, hclosing, rfl, rfl⟩
    rw [append_of_cut? hcut, List.drop_left] at hclosing
    exact ⟨r, s, hcut, hclosing⟩
  · rintro ⟨r, s, hcut, hclosing⟩
    refine ⟨before, r, hcut, s, after, ?_, rfl, rfl⟩
    rw [append_of_cut? hcut, List.drop_left]
    exact hclosing

theorem markedBlock?_eq_none_iff : markedBlock? opening closing t = none ↔
    ∀ before r, cut? opening t = some (before, r) → ¬ closing <:+: opening ++ r := by
  rw [Option.eq_none_iff_forall_ne_some, Prod.forall]
  constructor
  · intro h before r hcut hclosing
    obtain ⟨s, after, hfound⟩ := exists_cut?_of_isInfix hclosing
    exact h before after (markedBlock?_eq_some_iff.mpr ⟨r, s, hcut, hfound⟩)
  · intro h before after hfound
    obtain ⟨r, s, hcut, hclosing⟩ := markedBlock?_eq_some_iff.mp hfound
    refine h before r hcut ⟨s, after, ?_⟩
    rw [List.append_assoc, append_of_cut? hclosing]

theorem markedBlock?_eq_none (h : ¬ opening <:+: t) (closing : List Char) :
    markedBlock? opening closing t = none := by
  rw [markedBlock?, cut?_eq_none h]
  rfl

end Marked

end JniLink.Text
