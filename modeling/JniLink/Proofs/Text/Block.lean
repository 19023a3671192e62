import Mathlib.Data.List.Infix
import Mathlib.Data.List.TakeWhile
import JniLink.Proofs.Text.Match
import JniLink.Proofs.Text.Split
import JniLink.Proofs.Text.Word
import JniLink.Text.Block

/-!
# A marked block gives way to the next one

A marker is found at its first occurrence and nowhere before, and not at all in a text that does not
hold it. So a block on lines of its own, with no opening marker in front of it and no closing marker
inside of it, is what the next block is put in place of: its lines go, and every other line stays.
-/

namespace JniLink.Text

/-! ## The first occurrence of a marker -/

theorem Apart.not_isInfix {word t : List Char} (h : Apart word t) (hne : word ≠ []) :
    ¬ word <:+: t := by
  induction t with
  | nil => exact fun hword => hne (List.infix_nil.mp hword)
  | cons c t ih =>
    obtain ⟨-, hlong, hrest⟩ := h
    rw [List.infix_cons_iff, not_or]
    exact ⟨hlong, ih hrest⟩

/-- Where a word does not occur, it does not begin either if a character follows that is not in it. -/
theorem apart_concat {word piece : List Char} {m : Char} (hm : m ∉ word) (h : ¬ word <:+: piece) :
    Apart word (piece ++ [m]) := by
  induction piece with
  | nil =>
    refine ⟨fun hshort => hm (hshort.subset List.mem_cons_self), fun hlong => h ?_, trivial⟩
    rw [← List.nil_append [m]] at hlong
    rcases List.prefix_concat_iff.mp hlong with rfl | hnil
    · exact absurd List.mem_cons_self hm
    · exact hnil.isInfix
  | cons c piece ih =>
    rw [List.infix_cons_iff, not_or] at h
    refine ⟨fun hshort => ?_, fun hlong => ?_, ih h.2⟩
    · exact hm (hshort.subset (List.mem_append_right (c :: piece) List.mem_cons_self))
    · change word <+: (c :: piece) ++ [m] at hlong
      rcases List.prefix_concat_iff.mp hlong with rfl | hpiece
      · exact hm (List.mem_append_right (c :: piece) List.mem_cons_self)
      · exact h.1 hpiece

theorem cut?_append {pat piece : List Char} (h : Apart pat piece) (t : List Char) :
    cut? pat (piece ++ t) = (cut? pat t).map (Prod.map (piece ++ ·) id) := by
  induction piece with
  | nil =>
    rw [List.nil_append]
    cases cut? pat t <;> rfl
  | cons c piece ih =>
    have hstart : stripStart? pat (c :: (piece ++ t)) = none := stripStart?_of_apart h t
    rw [List.cons_append, cut?, hstart, ih h.2.2, Option.map_map]
    rfl

/-- Behind a text apart from it, a marker is found where it stands. -/
theorem cut?_append_self {pat piece : List Char} (h : Apart pat piece) (t : List Char) :
    cut? pat (piece ++ (pat ++ t)) = some (piece, t) := by
  have hself : cut? pat (pat ++ t) = some ([], t) := by
    have hstart : stripStart? pat (pat ++ t) = some t := stripStart?_eq_some_iff.mpr rfl
    cases hs : pat ++ t with
    | nil =>
      obtain ⟨rfl, rfl⟩ := List.append_eq_nil_iff.mp hs
      rfl
    | cons c r => rw [cut?, ← hs, hstart]
  rw [cut?_append h, hself]
  simp

theorem cut?_eq_none {pat t : List Char} (h : ¬ pat <:+: t) : cut? pat t = none := by
  induction t with
  | nil =>
    refine if_neg fun hnil : pat = [] => h ?_
    rw [hnil]
  | cons c t ih =>
    rw [List.infix_cons_iff, not_or] at h
    have hstart : stripStart? pat (c :: t) = none := by
      rw [Option.eq_none_iff_forall_ne_some]
      intro rest hrest
      exact h.1 ⟨rest, (stripStart?_eq_some_iff.mp hrest).symm⟩
    rw [cut?, hstart, ih h.2]
    rfl

/-! ## Lines -/

theorem isInfix_of_mem_lines {t line : List Char} (h : line ∈ lines t) : line <:+: t := by
  let pieces := splitWhere (· == '\n') t
  have hended : ∀ line ∈ pieces.dropLast.map fun line => (stripEnd? ['\r'] line).getD line,
      line <:+: t := by
    intro line hline
    obtain ⟨piece, hpiece, rfl⟩ := List.mem_map.mp hline
    have hinfix := isInfix_of_mem_splitWhere (List.dropLast_subset _ hpiece)
    cases hreturn : stripEnd? ['\r'] piece with
    | none => exact hinfix
    | some rest =>
      rw [stripEnd?_eq_some_iff] at hreturn
      have hprefix : rest <+: piece := ⟨['\r'], hreturn.symm⟩
      exact hprefix.isInfix.trans hinfix
  simp only [lines] at h
  split at h
  next => exact hended line h
  next => exact hended line h
  next last hlast =>
    rcases List.mem_append.mp h with h | h
    · exact hended line h
    · rw [List.mem_singleton.mp h]
      exact isInfix_of_mem_splitWhere (List.mem_of_getLast? hlast)

/-- A line feed ends a line, and what comes behind it is a text of its own. -/
theorem lines_append_feed (s t : List Char) : lines (s ++ '\n' :: t) = lines (s ++ ['\n']) ++ lines t := by
  obtain ⟨pieces, last, ht⟩ := exists_splitWhere_eq_concat (· == '\n') t
  have hcut : splitWhere (· == '\n') (s ++ '\n' :: t) =
      splitWhere (· == '\n') s ++ pieces ++ [last] := by
    rw [splitWhere_append_cons rfl, ht, List.append_assoc]
  have hend : splitWhere (· == '\n') (s ++ ['\n']) = splitWhere (· == '\n') s ++ [[]] :=
    splitWhere_append_cons rfl s []
  simp only [lines, hcut, hend, ht, List.dropLast_concat, List.getLast?_concat, List.map_append]
  cases last with
  | nil => rfl
  | cons c last => simp only [List.append_assoc]

theorem trim_eq_nil_iff {t : List Char} : trim t = [] ↔ ∀ c ∈ t, isBlank c = true := by
  constructor
  · intro h
    rw [trim, trimEnd, List.reverse_eq_nil_iff, List.dropWhile_eq_nil_iff] at h
    have hhead := List.head?_dropWhile_not isBlank t
    rw [← trimStart] at hhead
    cases hstart : trimStart t with
    | nil => exact List.dropWhile_eq_nil_iff.mp hstart
    | cons c rest =>
      have hblank : isBlank c = true := h c (by rw [hstart, List.mem_reverse]; exact List.mem_cons_self)
      rw [hstart, List.head?_cons] at hhead
      simp [hblank] at hhead
  · intro h
    have hnil := trimStart_append h []
    rw [List.append_nil] at hnil
    rw [trim, hnil]
    rfl

/-! ## The last line -/

theorem lastLine_append {s : List Char} (h : '\n' ∉ s) (t : List Char) :
    lastLine (t ++ s) = lastLine t ++ s := by
  have hall : ∀ c ∈ s.reverse, (c != '\n') = true := fun c hc => by
    simpa using ne_of_mem_of_not_mem (List.mem_reverse.mp hc) h
  rw [lastLine, List.reverse_append, List.takeWhile_append_of_pos hall, List.reverse_append,
    List.reverse_reverse, lastLine]

theorem wholeLines_append {s : List Char} (h : '\n' ∉ s) (t : List Char) :
    wholeLines (t ++ s) = wholeLines t := by
  have hall : ∀ c ∈ s.reverse, (c != '\n') = true := fun c hc => by
    simpa using ne_of_mem_of_not_mem (List.mem_reverse.mp hc) h
  rw [wholeLines, List.reverse_append, List.dropWhile_append_of_pos hall, wholeLines]

theorem lastLine_concat_feed (t : List Char) : lastLine (t ++ ['\n']) = [] := by
  rw [lastLine, List.reverse_concat, List.takeWhile_cons_of_neg (by decide), List.reverse_nil]

theorem wholeLines_of_lastLine_eq_nil {t : List Char} (h : lastLine t = []) : wholeLines t = t := by
  have hcut := wholeLines_append_lastLine t
  rwa [h, List.append_nil] at hcut

theorem lastLine_append_cons {s : List Char} (h : '\n' ∉ s) (t : List Char) :
    lastLine (t ++ '\n' :: s) = s := by
  rw [List.append_cons, lastLine_append h, lastLine_concat_feed, List.nil_append]

theorem wholeLines_append_cons {s : List Char} (h : '\n' ∉ s) (t : List Char) :
    wholeLines (t ++ '\n' :: s) = t ++ ['\n'] := by
  rw [List.append_cons, wholeLines_append h, wholeLines_of_lastLine_eq_nil (lastLine_concat_feed t)]

/-- A last line of blanks is dropped, and the line feed before it stays. -/
theorem dropBlankLine_append_cons {s : List Char} (hblank : ∀ c ∈ s, isBlank c = true)
    (hfeed : '\n' ∉ s) (t : List Char) : dropBlankLine (t ++ '\n' :: s) = t ++ ['\n'] := by
  rw [dropBlankLine, lastLine_append_cons hfeed, if_pos (trim_eq_nil_iff.mpr hblank),
    wholeLines_append_cons hfeed]

/-! ## Blocks -/

/-- The lines of a marked block give way to another block. -/
theorem replaceBlock?_append {opening closing front indent body : List Char}
    (hfront : Apart opening (front ++ '\n' :: indent)) (hbody : Apart closing (opening ++ body))
    (hblank : ∀ c ∈ indent, isBlank c = true) (hfeed : '\n' ∉ indent) (block rest : List Char) :
    replaceBlock? opening closing block
        (front ++ '\n' :: (indent ++ (opening ++ (body ++ (closing ++ '\n' :: rest))))) =
      some (front ++ '\n' :: (block ++ rest)) := by
  have hcut : front ++ '\n' :: (indent ++ (opening ++ (body ++ (closing ++ '\n' :: rest)))) =
      front ++ '\n' :: indent ++ (opening ++ (body ++ (closing ++ '\n' :: rest))) := by
    rw [List.append_assoc, List.cons_append]
  have hafter : afterLine ('\n' :: rest) = rest := rfl
  have hopening := cut?_append_self hfront (body ++ (closing ++ '\n' :: rest))
  have hclosing := cut?_append_self hbody ('\n' :: rest)
  rw [List.append_assoc opening] at hclosing
  have hdrop : (front ++ '\n' :: indent ++ (opening ++ (body ++ (closing ++ '\n' :: rest)))).drop
      (front ++ '\n' :: indent).length = opening ++ (body ++ (closing ++ '\n' :: rest)) :=
    List.drop_left
  simp only [hcut, replaceBlock?, hopening, hdrop, hclosing, hafter,
    dropBlankLine_append_cons hblank hfeed]
  rw [List.append_assoc, List.append_assoc, List.singleton_append]

end JniLink.Text
