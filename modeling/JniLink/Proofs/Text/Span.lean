import JniLink.Proofs.Text.Marked

/-!
# The lines that a marked block stands on

The span of a marked block runs from the start of the first opening marker to the end of the first
closing marker from there on. The closing one may begin inside the opening one, so the span may end
before the opening marker does.

A text with a span has lines above it, lines that the span stands on, and lines below it (`IsCutAt`).
Replacing the block changes only those in the middle (`replaceBlock?_whole_lines`): of them stays
what stands before the span on its first line, if that is more than blanks. A block that does not
end its last line runs into the first line below.
-/

namespace JniLink.Text

/-- The first occurrence of a text in another one, with what stands before it and behind it. -/
structure IsFirst (pat before after t : List Char) : Prop where
  split : t = before ++ (pat ++ after)
  first : ∀ front back, t = front ++ (pat ++ back) → before.length ≤ front.length

variable {pat opening closing before after t : List Char}

theorem cut?_eq_some_iff_isFirst : cut? pat t = some (before, after) ↔ IsFirst pat before after t := by
  constructor
  · intro h
    have hsplit := append_of_cut? h
    refine ⟨hsplit, fun front back ht => ?_⟩
    have hback := (suffix_of_cut? h ht).length_le
    have hlength := congrArg List.length (hsplit.symm.trans ht)
    simp only [List.length_append] at hlength
    omega
  · rintro ⟨hsplit, hfirst⟩
    have hin : pat <:+: t := ⟨before, after, by rw [hsplit, List.append_assoc]⟩
    obtain ⟨x, y, hcut⟩ := exists_cut?_of_isInfix hin
    have ht := append_of_cut? hcut
    have hle := hfirst x y ht
    have hafter := (suffix_of_cut? hcut hsplit).length_le
    have hlength := congrArg List.length (hsplit.symm.trans ht)
    simp only [List.length_append] at hlength
    obtain ⟨rfl, htail⟩ := List.append_inj (hsplit.symm.trans ht) (by omega)
    rw [hcut, List.append_cancel_left htail]

/-! ## Lines above and below -/

theorem lines_append (h : lastLine before = []) (t : List Char) :
    lines (before ++ t) = lines before ++ lines t := by
  rcases List.eq_nil_or_concat' before with rfl | ⟨front, c, rfl⟩
  · rfl
  · by_cases hfeed : c = '\n'
    · rw [hfeed, List.append_assoc, List.singleton_append, lines_append_feed]
    · rw [lastLine_append (by simpa using Ne.symm hfeed)] at h
      simp at h

/-- What stays of the text before a block on its first line: nothing of blanks, and all of the rest. -/
def unlessBlank (t : List Char) : List Char :=
  if trim t = [] then [] else t

theorem dropBlankLine_eq (t : List Char) :
    dropBlankLine t = wholeLines t ++ unlessBlank (lastLine t) := by
  unfold dropBlankLine unlessBlank
  split
  · rw [List.append_nil]
  · rw [wholeLines_append_lastLine]

/-- The rest of a line, with the line feed that ends it if there is one. -/
def restOfLine (t : List Char) : List Char :=
  t.takeWhile (· != '\n') ++ (t.dropWhile (· != '\n')).take 1

theorem restOfLine_append_afterLine (t : List Char) : restOfLine t ++ afterLine t = t := by
  rw [restOfLine, afterLine, List.append_assoc, List.take_append_drop,
    List.takeWhile_append_dropWhile]

theorem notMem_takeWhile_feed (t : List Char) : '\n' ∉ t.takeWhile (· != '\n') := by
  intro h
  have hne := List.mem_takeWhile_imp h
  simp at hne

/-- The rest of a line ends with its line feed, or nothing comes behind it. -/
theorem restOfLine_cases (t : List Char) :
    ('\n' ∉ restOfLine t ∧ afterLine t = []) ∨
      ∃ line, restOfLine t = line ++ ['\n'] ∧ '\n' ∉ line := by
  have hline := notMem_takeWhile_feed t
  cases hdrop : t.dropWhile (· != '\n') with
  | nil =>
    left
    rw [restOfLine, afterLine, hdrop]
    exact ⟨by simpa using hline, rfl⟩
  | cons c r =>
    right
    obtain rfl := eq_of_dropWhile_ne hdrop
    exact ⟨_, by rw [restOfLine, hdrop]; rfl, hline⟩

/-- Behind the rest of a line, with whatever stands in front of it, the next line begins. -/
theorem lines_append_afterLine (front t : List Char) :
    lines (front ++ restOfLine t ++ afterLine t) =
      lines (front ++ restOfLine t) ++ lines (afterLine t) := by
  rcases restOfLine_cases t with ⟨-, hnil⟩ | ⟨line, hline, -⟩
  · rw [hnil, List.append_nil]
    exact (List.append_nil _).symm
  · refine lines_append ?_ _
    rw [hline, ← List.append_assoc]
    exact lastLine_concat_feed _

/-! ## The span of a block -/

/-- A text that is cut at a span: whole lines above it; what stands before it on its first line, where
the opening marker stands as well; the rest of its last line, where the closing marker stands as
well; and the lines below. -/
structure IsCutAt (opening closing above indent span rest below : List Char) : Prop where
  above : lastLine above = []
  opens : indent ++ opening <+: (indent ++ span ++ rest).takeWhile (· != '\n')
  closes : closing <:+ lastLine (indent ++ span)
  rest : ('\n' ∉ rest ∧ below = []) ∨ ∃ line, rest = line ++ ['\n'] ∧ '\n' ∉ line

theorem notMem_lastLine (t : List Char) : '\n' ∉ lastLine t := by
  intro h
  rw [lastLine, List.mem_reverse] at h
  exact notMem_takeWhile_feed t.reverse h

/-- Between the markers' lines and the others a text is cut as said. -/
theorem isCutAt_of_isFirst {rest front : List Char} (hopening : '\n' ∉ opening)
    (hclosing : '\n' ∉ closing) (h : IsFirst closing front after (opening ++ rest)) :
    IsCutAt opening closing (wholeLines before) (lastLine before) (front ++ closing)
      (restOfLine after) (afterLine after) where
  above := lastLine_wholeLines before
  opens := by
    have hspan : opening <+: front ++ closing ++ restOfLine after := by
      have hall : opening <+: front ++ closing ++ restOfLine after ++ afterLine after := by
        refine ⟨rest, ?_⟩
        rw [h.split, List.append_assoc, restOfLine_append_afterLine, List.append_assoc]
      rcases List.prefix_or_prefix_of_prefix hall (List.prefix_append _ _) with hle | hge
      · exact hle
      -- the span would end before the opening marker does, so its line is not ended
      · rcases restOfLine_cases after with ⟨-, hnil⟩ | ⟨line, hline, -⟩
        · rwa [hnil, List.append_nil] at hall
        · refine absurd (hge.subset (List.mem_append_right _ ?_)) hopening
          rw [hline]
          exact List.mem_append_right line List.mem_cons_self
    obtain ⟨more, hmore⟩ := hspan
    have hall : ∀ c ∈ lastLine before ++ opening, (c != '\n') = true := by
      intro c hc
      have hne : c ≠ '\n' := by
        rcases List.mem_append.mp hc with hc | hc
        · exact ne_of_mem_of_not_mem hc (notMem_lastLine before)
        · exact ne_of_mem_of_not_mem hc hopening
      simpa using hne
    rw [List.append_assoc, ← hmore, ← List.append_assoc, List.takeWhile_append_of_pos hall]
    exact List.prefix_append _ _
  closes := by
    rw [← List.append_assoc, lastLine_append hclosing]
    exact List.suffix_append _ closing
  rest := restOfLine_cases after

/-- There is no block if the opening marker does not occur, or if the closing one does not from the
start of the first opening one on. -/
theorem markedBlock?_eq_none_iff_isFirst {content : List Char} :
    markedBlock? opening closing content = none ↔
      ¬ opening <:+: content ∨
        ∃ before rest, IsFirst opening before rest content ∧ ¬ closing <:+: opening ++ rest := by
  rw [markedBlock?_eq_none_iff]
  simp only [cut?_eq_some_iff_isFirst]
  constructor
  · intro h
    by_cases hin : opening <:+: content
    · obtain ⟨before, rest, hcut⟩ := exists_cut?_of_isInfix hin
      rw [cut?_eq_some_iff_isFirst] at hcut
      exact .inr ⟨before, rest, hcut, h before rest hcut⟩
    · exact .inl hin
  · rintro (hnone | ⟨before, rest, hfirst, hnone⟩) before' rest' hfirst'
    · refine absurd ⟨before', rest', ?_⟩ hnone
      rw [hfirst'.split, List.append_assoc]
    · rw [← cut?_eq_some_iff_isFirst] at hfirst hfirst'
      cases hfirst.symm.trans hfirst'
      exact hnone

/-- There is no block to replace if the opening marker does not occur, or if the closing one does not
from the start of the first opening one on. Otherwise the lines above the span stay, and so do those
below; of the lines it stands on, the block takes the place, behind what stands before the span on its
first line unless that is blank. -/
theorem replaceBlock?_whole_lines (hopening : '\n' ∉ opening) (hclosing : '\n' ∉ closing)
    (block content : List Char) :
    (replaceBlock? opening closing block content = none ↔
      ¬ opening <:+: content ∨
        ∃ before rest, IsFirst opening before rest content ∧ ¬ closing <:+: opening ++ rest) ∧
    ∀ before rest front after, IsFirst opening before rest content →
      IsFirst closing front after (opening ++ rest) →
      ∃ above indent tail below, before = above ++ indent ∧ after = tail ++ below ∧
        IsCutAt opening closing above indent (front ++ closing) tail below ∧
        content = above ++ (indent ++ (front ++ closing) ++ tail) ++ below ∧
        lines content = lines above ++ lines (indent ++ (front ++ closing) ++ tail) ++ lines below ∧
        ∃ written, written = unlessBlank indent ++ block ∧
          replaceBlock? opening closing block content = some (above ++ written ++ below) ∧
          lines (above ++ written ++ below) = lines above ++ lines (written ++ below) ∧
          (lastLine written = [] →
            lines (above ++ written ++ below) = lines above ++ lines written ++ lines below) := by
  constructor
  · rw [replaceBlock?_eq_map, Option.map_eq_none_iff, markedBlock?_eq_none_iff_isFirst]
  · intro before rest front after hfirst hclose
    have hcut : IsCutAt opening closing (wholeLines before) (lastLine before) (front ++ closing)
        (restOfLine after) (afterLine after) :=
      isCutAt_of_isFirst hopening hclosing hclose
    have hbefore := wholeLines_append_lastLine before
    have hafter := restOfLine_append_afterLine after
    have hcontent : content = wholeLines before ++
        (lastLine before ++ (front ++ closing) ++ restOfLine after) ++ afterLine after := by
      rw [hfirst.split, hclose.split]
      conv_lhs => rw [← hbefore, ← hafter]
      simp only [List.append_assoc]
    have hfound : markedBlock? opening closing content = some (before, after) :=
      markedBlock?_eq_some_iff.mpr ⟨rest, front, cut?_eq_some_iff_isFirst.mpr hfirst,
        cut?_eq_some_iff_isFirst.mpr hclose⟩
    refine ⟨wholeLines before, lastLine before, restOfLine after, afterLine after, hbefore.symm,
      hafter.symm, hcut, hcontent, ?_, _, rfl, ?_, ?_, fun hended => ?_⟩
    · rw [hcontent, List.append_assoc (wholeLines before), lines_append hcut.above,
        lines_append_afterLine]
      exact (List.append_assoc _ _ _).symm
    · rw [replaceBlock?_eq_map, hfound, Option.map_some, dropBlankLine_eq]
      simp only [List.append_assoc]
    · rw [List.append_assoc (wholeLines before), lines_append hcut.above]
    · rw [List.append_assoc (wholeLines before), lines_append hcut.above, lines_append hended]
      exact (List.append_assoc _ _ _).symm

/-- The closing marker begins inside the opening one, and the rest of its line goes with the block; a
closing marker in front of the opening one counts for nothing. -/
theorem replaceBlock?_whole_lines_overlapping :
    '\n' ∉ "<a>".toList ∧ '\n' ∉ ">b".toList ∧
      replaceBlock? "<a>".toList ">b".toList "new".toList ">b <a>".toList = none ∧
      ∃ above indent tail below, "x\n  ".toList = above ++ indent ∧
        " y\nz".toList = tail ++ below ∧
        IsCutAt "<a>".toList ">b".toList above indent "<a>b".toList tail below := by
  have hopening : '\n' ∉ "<a>".toList := by decide
  have hclosing : '\n' ∉ ">b".toList := by decide
  refine ⟨hopening, hclosing, ?_, ?_⟩
  · refine (replaceBlock?_whole_lines hopening hclosing _ _).1.mpr (.inr ⟨">b ".toList, [], ?_, ?_⟩)
    · exact cut?_eq_some_iff_isFirst.mp (by decide)
    · decide
  · obtain ⟨above, indent, tail, below, hbefore, hafter, hcut, -⟩ :=
      (replaceBlock?_whole_lines hopening hclosing "new".toList "x\n  <a>b y\nz".toList).2
        "x\n  ".toList "b y\nz".toList "<a".toList " y\nz".toList
        (cut?_eq_some_iff_isFirst.mp (by decide)) (cut?_eq_some_iff_isFirst.mp (by decide))
    exact ⟨above, indent, tail, below, hbefore, hafter, hcut⟩

end JniLink.Text
