import JniLink.Proofs.Host.Splice
import JniLink.Proofs.Text.Marked

/-!
# Splicing into a text with a block

The second of two insertions finds the block that the first one left, and whether it puts its own
block in the same place is decided by the markers of the first text.

With the same declarations for the same class the text stays as it is exactly if the first text was
settled, and the header is found again with its indent. A text is not settled if an opening marker is
left open before the brace of the class, since the second insertion takes all from there on for the
block, the header included; nor if something else stands before the opening marker on its line, since
the indent of the block comes behind that each time.

With another class the block is put in place of the one there is all the same, so that of the first
block no line is left.
-/

namespace JniLink.Host

open JniLink.Text

/-! ## What stands around the block -/

/-- The indent of the header of the class. -/
def headerIndent? (name content : List Char) : Option (List Char) :=
  (firstMatch? (classOpening name) none content).map Prod.fst

/-- The text up to the brace of the class. -/
def classHead? (name content : List Char) : Option (List Char) :=
  (firstMatch? (classOpening name) none content).map fun found =>
    content.take (content.length - found.2.length)

/-- What an insertion puts before the block, and what it puts behind, where `rest` is the text behind
the brace of the class. -/
def around (content rest : List Char) : List Char × List Char :=
  match markedBlock? blockOpening blockClosing content with
  | some (before, after) => (dropBlankLine before, afterLine after)
  | none => (content.take (content.length - rest.length) ++ ['\n'], '\n' :: dropLineEnds rest)

section

variable {content name t indent rest : List Char} {s : Insertion}

theorem spliceText_eq_ok_iff :
    spliceText content name s.library s.decls s.language = .ok t ↔
      ∃ indent rest, firstMatch? (classOpening name) none content = some (indent, rest) ∧
        t = (around content rest).1 ++ (s.block indent ++ (around content rest).2) := by
  rw [spliceText]
  cases hheader : firstMatch? (classOpening name) none content with
  | none => simp
  | some found =>
    obtain ⟨indent, rest⟩ := found
    have hblock : blockText s.library s.decls s.language (indent ++ "    ".toList) =
      s.block indent := rfl
    simp only [hblock, replaceBlock?_eq_map, around]
    cases markedBlock? blockOpening blockClosing content with
    | some found => simp [eq_comm]
    | none => simp [eq_comm]

theorem isSpaceOrTab_of_firstMatch?
    (h : firstMatch? (classOpening name) none content = some (indent, rest)) :
    ∀ c ∈ indent, isSpaceOrTab c = true := by
  obtain ⟨before, line, -, hread⟩ := exists_of_firstMatch? h
  exact isSpaceOrTab_of_classOpening hread

theorem around_of_eq_some {before after : List Char}
    (h : markedBlock? blockOpening blockClosing content = some (before, after)) (rest : List Char) :
    around content rest = (dropBlankLine before, afterLine after) := by
  rw [around, h]

theorem around_of_eq_none (h : markedBlock? blockOpening blockClosing content = none)
    (rest : List Char) : around content rest =
      (content.take (content.length - rest.length) ++ ['\n'], '\n' :: dropLineEnds rest) := by
  rw [around, h]

/-- Nothing more is dropped from what comes before the block. -/
theorem dropBlankLine_around (content rest : List Char) :
    dropBlankLine (around content rest).1 = (around content rest).1 := by
  unfold around
  split
  · exact dropBlankLine_dropBlankLine _
  · exact dropBlankLine_of_lastLine_eq_nil (lastLine_concat_feed _)

end

/-! ## The text of a block -/

/-- The indent of a block in a class with an indent. -/
def blockIndent (indent : List Char) : List Char :=
  indent ++ "    ".toList

theorem block_eq_append (s : Insertion) (indent : List Char) :
    s.block indent = blockIndent indent ++ (blockOpening ++
      (blockBody s (blockIndent indent) ++ (blockClosing ++ ['\n']))) :=
  blockText_eq_append s (blockIndent indent)

section Block

variable {indent : List Char} (hindent : ∀ c ∈ indent, isSpaceOrTab c = true)
include hindent

theorem isSpaceOrTab_of_mem_blockIndent : ∀ c ∈ blockIndent indent, isSpaceOrTab c = true :=
  List.forall_mem_append.mpr ⟨hindent, by decide⟩

theorem isBlank_of_mem_blockIndent : ∀ c ∈ blockIndent indent, isBlank c = true :=
  fun c hc => isBlank_of_isSpaceOrTab (isSpaceOrTab_of_mem_blockIndent hindent c hc)

theorem notMem_blockIndent {c : Char} (hc : isSpaceOrTab c = false) : c ∉ blockIndent indent := by
  intro hmem
  rw [isSpaceOrTab_of_mem_blockIndent hindent c hmem] at hc
  cases hc

/-- A block begins with its indent, and the rest of it does not begin with a space. -/
theorem takeWhile_block (s : Insertion) :
    (s.block indent).takeWhile isSpaceOrTab = blockIndent indent := by
  rw [block_eq_append, List.takeWhile_append_of_pos (isSpaceOrTab_of_mem_blockIndent hindent)]
  exact (congrArg _ (List.takeWhile_cons_of_neg (by decide))).trans (List.append_nil _)

theorem block_inj (s : Insertion) {indent' : List Char}
    (hindent' : ∀ c ∈ indent', isSpaceOrTab c = true) (h : s.block indent' = s.block indent) :
    indent' = indent := by
  have htake := congrArg (List.takeWhile isSpaceOrTab) h
  rw [takeWhile_block hindent', takeWhile_block hindent] at htake
  exact List.append_cancel_right htake

/-- An indent does not change the number of lines. -/
theorem count_block (s : Insertion) : (s.block indent).count '\n' = (s.block []).count '\n' := by
  have hnil : ∀ c ∈ ([] : List Char), isSpaceOrTab c = true := nofun
  have hfeed {indent : List Char} (hindent : ∀ c ∈ indent, isSpaceOrTab c = true) :
      (blockIndent indent).count '\n' = 0 :=
    List.count_eq_zero_of_not_mem (notMem_blockIndent hindent (by decide))
  have hline (line : List Char) : (indentLine (blockIndent indent) line).count '\n' =
      (indentLine (blockIndent []) line).count '\n' := by
    unfold indentLine
    split
    · rfl
    · simp only [List.count_append, hfeed hindent, hfeed hnil]
  have hlines (l : List (List Char)) :
      (l.flatMap (indentLine (blockIndent indent))).count '\n' =
        (l.flatMap (indentLine (blockIndent []))).count '\n' := by
    induction l with
    | nil => rfl
    | cons line l ih => simp only [List.flatMap_cons, List.count_append, hline, ih]
  simp only [block_eq_append, blockBody, List.count_append, List.count_cons, hfeed hindent, hfeed hnil, hlines]

end Block

/-! ## The block is found again -/

section Again

variable {front indent : List Char} {s : Insertion} (hs : s.Unmarked)
  (hindent : ∀ c ∈ indent, isSpaceOrTab c = true)
include hs hindent

/-- The closing marker of a block is the first one behind its front, if there is none in the front. -/
theorem cut?_blockClosing (hfront : Apart blockClosing front) (rest : List Char) :
    cut? blockClosing (front ++ (s.block indent ++ rest)) =
      some (front ++ (blockIndent indent ++ (blockOpening ++ blockBody s (blockIndent indent))),
        '\n' :: rest) := by
  have hslash : '/' ∉ blockIndent indent := notMem_blockIndent hindent (by decide)
  have hapart := hfront.append ((apart_blockClosing hslash).append (apart_blockBody hs hslash))
  have hcut : front ++ (s.block indent ++ rest) =
      front ++ (blockIndent indent ++ (blockOpening ++ blockBody s (blockIndent indent))) ++
        (blockClosing ++ '\n' :: rest) := by
    rw [block_eq_append]
    simp only [List.append_assoc, List.singleton_append]
  rw [hcut]
  exact cut?_append_self hapart ('\n' :: rest)

theorem markedBlock?_block (hfront : ¬ blockOpening <:+: front) (rest : List Char) :
    markedBlock? blockOpening blockClosing (front ++ (s.block indent ++ rest)) =
      some (front ++ blockIndent indent, '\n' :: rest) := by
  have hslash : '/' ∉ blockIndent indent := notMem_blockIndent hindent (by decide)
  have hspaces := isSpaceOrTab_of_mem_blockIndent hindent
  obtain ⟨c, spaces, hcons⟩ : ∃ c spaces, blockIndent indent = c :: spaces :=
    List.exists_cons_of_ne_nil (List.append_ne_nil_of_right_ne_nil indent (by decide))
  have hc : c ∉ blockOpening := by
    intro hmem
    have hspace := hspaces c (by rw [hcons]; exact List.mem_cons_self)
    have hnone : ∀ c ∈ blockOpening, isSpaceOrTab c = false := by decide
    rw [hnone c hmem] at hspace
    cases hspace
  have hapart : Apart blockOpening (front ++ blockIndent indent) := by
    rw [hcons, List.mem_cons, not_or] at hslash
    have happend := (apart_concat hc hfront).append (apart_blockOpening hslash.2)
    rwa [List.append_assoc, List.singleton_append, ← hcons] at happend
  have hbody : cut? blockClosing (blockOpening ++ (blockBody s (blockIndent indent) ++
      (blockClosing ++ '\n' :: rest))) =
        some (blockOpening ++ blockBody s (blockIndent indent), '\n' :: rest) := by
    rw [← List.append_assoc]
    exact cut?_append_self (apart_blockBody hs hslash) ('\n' :: rest)
  have hcut : front ++ (s.block indent ++ rest) = front ++ blockIndent indent ++
      (blockOpening ++ (blockBody s (blockIndent indent) ++ (blockClosing ++ '\n' :: rest))) := by
    rw [block_eq_append]
    simp only [List.append_assoc, List.singleton_append]
  rw [hcut, markedBlock?_eq_some_iff]
  exact ⟨_, _, cut?_append_self hapart _, hbody⟩

theorem around_block (hfront : ¬ blockOpening <:+: front) (rest back : List Char) :
    around (front ++ (s.block indent ++ rest)) back =
      (dropBlankLine (front ++ blockIndent indent), rest) :=
  around_of_eq_some (markedBlock?_block hs hindent hfront rest) back

end Again

theorem dropBlankLine_append_blockIndent {front indent : List Char} (hlast : lastLine front = [])
    (hindent : ∀ c ∈ indent, isSpaceOrTab c = true) :
    dropBlankLine (front ++ blockIndent indent) = front := by
  have hfeed : '\n' ∉ blockIndent indent := notMem_blockIndent hindent (by decide)
  have hblank : EndsBlank (front ++ blockIndent indent) := by
    rw [endsBlank_append (isBlank_of_mem_blockIndent hindent) hfeed, EndsBlank, hlast]
    exact nofun
  rw [dropBlankLine_of_endsBlank hblank, wholeLines_append hfeed, wholeLines_of_lastLine_eq_nil hlast]

/-- The text before the block keeps its last line, and the indent of the block is added to it, unless
the line is empty. -/
theorem dropBlankLine_append_block_eq_iff {front indent indent' : List Char} {s : Insertion}
    (hfront : dropBlankLine front = front) (hindent : ∀ c ∈ indent, isSpaceOrTab c = true)
    (hindent' : ∀ c ∈ indent', isSpaceOrTab c = true) :
    dropBlankLine (front ++ blockIndent indent) ++ s.block indent' = front ++ s.block indent ↔
      lastLine front = [] ∧ indent' = indent := by
  have hfeed : '\n' ∉ blockIndent indent := notMem_blockIndent hindent (by decide)
  have hends := endsBlank_append (t := front) (isBlank_of_mem_blockIndent hindent) hfeed
  by_cases hblank : EndsBlank front
  · have hlast : lastLine front = [] := by
      rw [← hfront]
      exact lastLine_dropBlankLine_eq_nil_iff.mpr hblank
    rw [dropBlankLine_append_blockIndent hlast hindent, and_iff_right hlast]
    constructor
    · intro h
      exact block_inj hindent s hindent' (List.append_cancel_left h)
    · rintro rfl
      rfl
  · have hlast : lastLine front ≠ [] := by
      intro hnil
      apply hblank
      rw [← lastLine_dropBlankLine_eq_nil_iff, hfront, hnil]
    rw [dropBlankLine_of_not_endsBlank (mt hends.mp hblank), iff_false_right fun h => hlast h.1]
    intro h
    rw [block_eq_append s indent, List.append_assoc] at h
    have hblock := List.append_cancel_left (List.append_cancel_left h)
    have htake := congrArg (List.takeWhile isSpaceOrTab) hblock
    rw [takeWhile_block hindent'] at htake
    have hnil : (blockOpening ++ (blockBody s (blockIndent indent) ++
        (blockClosing ++ ['\n']))).takeWhile isSpaceOrTab = [] :=
      List.takeWhile_cons_of_neg (by decide)
    rw [hnil] at htake
    exact List.append_ne_nil_of_right_ne_nil indent' (by decide) htake

/-- Behind a text without an opening marker the block is found in its place. -/
theorem eq_around_iff_of_not_isInfix {front indent indent' r : List Char} {s : Insertion}
    (hs : s.Unmarked) (hopen : ¬ blockOpening <:+: front) (hfront : dropBlankLine front = front)
    (hindent : ∀ c ∈ indent, isSpaceOrTab c = true)
    (hindent' : ∀ c ∈ indent', isSpaceOrTab c = true) (back : List Char) :
    front ++ (s.block indent ++ r) = (around (front ++ (s.block indent ++ r)) back).1 ++
        (s.block indent' ++ (around (front ++ (s.block indent ++ r)) back).2) ↔
      lastLine front = [] ∧ indent' = indent := by
  rw [around_block hs hindent hopen, ← List.append_assoc, ← List.append_assoc, List.append_cancel_right_eq, eq_comm]
  exact dropBlankLine_append_block_eq_iff hfront hindent hindent'

/-- With an opening marker before the brace that no closing one follows, all behind that marker is
taken for the block, and lines are lost. -/
theorem ne_around_of_open {head rest indent indent' r : List Char} {s : Insertion}
    (hs : s.Unmarked) (hindent : ∀ c ∈ indent, isSpaceOrTab c = true)
    (hindent' : ∀ c ∈ indent', isSpaceOrTab c = true) (hopen : blockOpening <:+: head)
    (hnone : markedBlock? blockOpening blockClosing (head ++ rest) = none) (back : List Char) :
    head ++ ['\n'] ++ (s.block indent ++ r) ≠
      (around (head ++ ['\n'] ++ (s.block indent ++ r)) back).1 ++ (s.block indent' ++
        (around (head ++ ['\n'] ++ (s.block indent ++ r)) back).2) := by
  have hne : blockOpening ≠ [] := by decide
  obtain ⟨x, y, hcut⟩ := exists_cut?_of_isInfix hopen
  have hunclosed := markedBlock?_eq_none_iff.mp hnone x (y ++ rest) (cut?_append_right hne hcut rest)
  have hy : ¬ blockClosing <:+: blockOpening ++ y := by
    intro hin
    apply hunclosed
    rw [← List.append_assoc]
    exact hin.trans (List.prefix_append _ rest).isInfix
  have hcut' := cut?_append_right hne hcut (['\n'] ++ (s.block indent ++ r))
  have hclosing := cut?_blockClosing hs hindent (apart_concat (by decide : '\n' ∉ blockClosing) hy) r
  simp only [List.append_assoc] at hcut' hclosing
  have hfound := markedBlock?_eq_some_iff.mpr ⟨_, _, hcut', hclosing⟩
  have haround : around (head ++ ['\n'] ++ (s.block indent ++ r)) back = (dropBlankLine x, r) := by
    rw [List.append_assoc]
    exact around_of_eq_some hfound back
  rw [haround]
  intro h
  rw [← List.append_assoc, ← List.append_assoc] at h
  have hcount := congrArg (List.count '\n') (List.append_cancel_right h)
  have hle : (dropBlankLine x).count '\n' ≤ head.count '\n' := by
    have hprefix : dropBlankLine x <+: head :=
      (dropBlankLine_isPrefix x).trans ⟨_, (append_of_cut? hcut).symm⟩
    exact hprefix.sublist.count_le '\n'
  simp only [List.count_append, count_block hindent, count_block hindent', List.count_singleton_self]
    at hcount
  omega

/-! ## The same declarations again -/

/-- An insertion will find its own block in its place: the block that is there has its opening marker
on a line of its own, or else no opening marker stands before the brace of the class. -/
structure Settled (content name : List Char) : Prop where
  alone : ∀ found ∈ markedBlock? blockOpening blockClosing content, EndsBlank found.1
  ahead : markedBlock? blockOpening blockClosing content = none →
    ∀ head ∈ classHead? name content, ¬ blockOpening <:+: head

section Settled

variable {content name indent rest : List Char}

theorem settled_of_some {before after : List Char}
    (hfound : markedBlock? blockOpening blockClosing content = some (before, after)) :
    Settled content name ↔ EndsBlank before := by
  constructor
  · intro h
    exact h.alone _ hfound
  · intro h
    refine ⟨fun found hmem => ?_, fun hnone => ?_⟩
    · cases hfound.symm.trans hmem
      exact h
    · cases hfound.symm.trans hnone

variable (hheader : firstMatch? (classOpening name) none content = some (indent, rest))
include hheader

theorem classHead?_eq :
    classHead? name content = some (content.take (content.length - rest.length)) := by
  rw [classHead?, hheader]
  rfl

theorem headerIndent?_eq : headerIndent? name content = some indent := by
  rw [headerIndent?, hheader]
  rfl

theorem settled_of_none (hnone : markedBlock? blockOpening blockClosing content = none) :
    Settled content name ↔
      ¬ blockOpening <:+: content.take (content.length - rest.length) := by
  have hhead := classHead?_eq hheader
  constructor
  · intro h
    exact h.ahead hnone _ hhead
  · intro h
    refine ⟨fun found hmem => ?_, fun _ head hmem => ?_⟩
    · cases hnone.symm.trans hmem
    · cases hhead.symm.trans hmem
      exact h

theorem take_append_rest : content.take (content.length - rest.length) ++ rest = content := by
  obtain ⟨before, line, hline, hread⟩ := exists_of_firstMatch? hheader
  obtain ⟨front, rfl⟩ := (cons_suffix_of_classOpening hread).trans hline
  rw [take_brace, ← List.append_cons]

/-- An insertion puts its block where it was, with the indent it had, exactly if the text before it
was settled. -/
theorem eq_around_iff {s : Insertion} (hs : s.Unmarked) {indent' t : List Char}
    (hindent' : ∀ c ∈ indent', isSpaceOrTab c = true)
    (ht : t = (around content rest).1 ++ (s.block indent ++ (around content rest).2))
    (back : List Char) :
    t = (around t back).1 ++ (s.block indent' ++ (around t back).2) ↔
      Settled content name ∧ indent' = indent := by
  have hindent := isSpaceOrTab_of_firstMatch? hheader
  have hline := dropBlankLine_around content rest
  cases hfound : markedBlock? blockOpening blockClosing content with
  | some found =>
    obtain ⟨before, after⟩ := found
    have haround := around_of_eq_some hfound rest
    obtain ⟨r, _, hcut, -⟩ := markedBlock?_eq_some_iff.mp hfound
    have hopen : ¬ blockOpening <:+: dropBlankLine before :=
      not_isInfix_dropBlankLine (by decide) hcut
    rw [haround] at ht hline
    rw [settled_of_some hfound, ← lastLine_dropBlankLine_eq_nil_iff, ht]
    exact eq_around_iff_of_not_isInfix hs hopen hline hindent hindent' back
  | none =>
    have haround := around_of_eq_none hfound rest
    rw [haround] at ht hline
    rw [settled_of_none hheader hfound, ht]
    by_cases hopen : blockOpening <:+: content.take (content.length - rest.length)
    · rw [← take_append_rest hheader] at hfound
      rw [iff_false_right fun h => h.1 hopen]
      exact ne_around_of_open hs hindent hindent' hopen hfound back
    · have hhead := not_isInfix_concat (by decide : '\n' ∉ blockOpening) (by decide) hopen
      rw [eq_around_iff_of_not_isInfix hs hhead hline hindent hindent' back,
        and_iff_right (lastLine_concat_feed _), and_iff_right hopen]

/-- The header is found again if no opening marker stands before its brace. -/
theorem headerIndent?_around (hname : '\x7b' ∉ name)
    (hhead : ¬ blockOpening <:+: content.take (content.length - rest.length)) (r : List Char) :
    headerIndent? name ((around content rest).1 ++ r) = some indent := by
  obtain ⟨a, ha, hagain⟩ := (endsAt_classOpening hname).firstMatch?_eq_some hheader
  have htake : content.take (content.length - rest.length) = a ++ ['\x7b'] := by
    rw [ha, take_brace]
  rw [htake] at hhead
  -- the marker has no brace in it, so the brace keeps what is before it apart
  have hapart : Apart blockOpening (a ++ ['\x7b']) :=
    apart_concat (by decide) fun hin => hhead (hin.trans (List.prefix_append a _).isInfix)
  have hprefix : a ++ ['\x7b'] <+: (around content rest).1 := by
    unfold around
    split
    next before after hfound =>
      obtain ⟨_, _, hopening, -⟩ := markedBlock?_eq_some_iff.mp hfound
      rw [ha, List.append_cons] at hopening
      exact prefix_dropBlankLine (prefix_of_cut? hapart hopening) (by decide)
    next => exact ⟨['\n'], by rw [htake]⟩
  obtain ⟨z, hz⟩ := hprefix
  have hfound := hagain (z ++ r)
  rw [headerIndent?, ← hz]
  simp only [List.append_assoc, List.cons_append, List.nil_append] at hfound ⊢
  rw [hfound]
  rfl

end Settled

/-- The same insertion made again leaves the text as it is if and only if the first text was settled
and the header is found again with its indent; and so it is if no opening marker stands before the
brace of the class. -/
theorem splice_again_iff {content name t : String} {s : Insertion} (hs : s.Unmarked)
    (h : splice content name s.library s.decls s.language = .ok t) :
    (splice t name s.library s.decls s.language = .ok t ↔
      Settled content.toList name.toList ∧
        headerIndent? name.toList t.toList = headerIndent? name.toList content.toList) ∧
    ('\x7b' ∉ name.toList →
      (∀ head ∈ classHead? name.toList content.toList, ¬ blockOpening <:+: head) →
        headerIndent? name.toList t.toList = headerIndent? name.toList content.toList) := by
  rw [splice_eq_ok_iff] at h ⊢
  obtain ⟨indent, rest, hheader, ht⟩ := spliceText_eq_ok_iff.mp h
  rw [headerIndent?_eq hheader]
  refine ⟨?_, fun hname hhead => ?_⟩
  · rw [spliceText_eq_ok_iff]
    constructor
    · rintro ⟨indent', back, hheader', heq⟩
      have hindent' := isSpaceOrTab_of_firstMatch? hheader'
      obtain ⟨hsettled, rfl⟩ := (eq_around_iff hheader hs hindent' ht back).mp heq
      exact ⟨hsettled, headerIndent?_eq hheader'⟩
    · rintro ⟨hsettled, hfound⟩
      obtain ⟨⟨indent', back⟩, hheader', rfl⟩ := Option.map_eq_some_iff.mp hfound
      have hindent' := isSpaceOrTab_of_firstMatch? hheader'
      exact ⟨indent', back, hheader', (eq_around_iff hheader hs hindent' ht back).mpr ⟨hsettled, rfl⟩⟩
  · rw [ht]
    exact headerIndent?_around hheader hname (hhead _ (classHead?_eq hheader)) _

/-- The block may stand in another class, above the header. -/
theorem splice_again_iff_block_above :
    let s : Insertion := ⟨"x", [.ofMethod "C" "f" ⟨[], .void⟩], .java⟩
    let content := "class B \x7b\n//<RustJNI>\n\t//</RustJNI> old\n\x7d\n" ++ "  class C \x7b\n  \x7d\n"
    let t := "class B \x7b\n" ++ "      //<RustJNI>\n" ++ "      // auto-generated code\n" ++
      "      private static native void f();\n\n" ++
      "      static \x7b System.loadLibrary(\"x\"); \x7d\n" ++ "      //</RustJNI>\n" ++ "\x7d\n" ++
      "  class C \x7b\n  \x7d\n"
    splice content "C" s.library s.decls s.language = .ok t ∧
      splice t "C" s.library s.decls s.language = .ok t := by
  intro s content t
  have hone : splice content "C" s.library s.decls s.language = .ok t := by
    rw [splice_eq_ok_iff]
    simp only [content, t, String.toList_append]
    repeat rw [String.toList_ofList]
    decide +kernel
  have hfound : markedBlock? blockOpening blockClosing content.toList =
      some ("class B \x7b\n".toList, " old\n\x7d\n  class C \x7b\n  \x7d\n".toList) := by
    simp only [content, String.toList_append]
    repeat rw [String.toList_ofList]
    decide +kernel
  have hindent : headerIndent? "C".toList t.toList = headerIndent? "C".toList content.toList := by
    simp only [content, t, String.toList_append]
    repeat rw [String.toList_ofList]
    decide +kernel
  have hagain := (splice_again_iff (by decide +kernel) hone).1
  exact ⟨hone, hagain.mpr ⟨(settled_of_some hfound).mpr (by decide +kernel), hindent⟩⟩

/-- The second insertion takes the header for a part of the block. -/
theorem splice_again_open_marker :
    let s : Insertion := ⟨"x", [.ofMethod "C" "f" ⟨[], .void⟩], .java⟩
    let content := "//<RustJNI>\nclass C \x7b\n\x7d\n"
    let block := "    //<RustJNI>\n" ++ "    // auto-generated code\n" ++
      "    private static native void f();\n\n" ++
      "    static \x7b System.loadLibrary(\"x\"); \x7d\n" ++ "    //</RustJNI>\n"
    let t := "//<RustJNI>\nclass C \x7b\n" ++ block ++ "\n\x7d\n"
    s.Unmarked ∧ splice content "C" s.library s.decls s.language = .ok t ∧
      splice t "C" s.library s.decls s.language = .ok (block ++ "\n\x7d\n") ∧
      block ++ "\n\x7d\n" ≠ t := by
  intro s content block t
  have hone : splice content "C" s.library s.decls s.language = .ok t := by
    rw [splice_eq_ok_iff]
    simp only [t, block, String.toList_append]
    repeat rw [String.toList_ofList]
    decide +kernel
  have htwo : splice t "C" s.library s.decls s.language = .ok (block ++ "\n\x7d\n") := by
    rw [splice_eq_ok_iff]
    simp only [t, block, String.toList_append]
    repeat rw [String.toList_ofList]
    decide +kernel
  exact ⟨by decide +kernel, hone, htwo, by decide +kernel⟩

/-! ## Another class -/

/-- Two insertions into a text without a block, whatever the classes are: both blocks are put in the
same place, and a line of the first block is left in the text only if it is one of the second block
too, or stands in the rest of the text. -/
theorem splice_two_classes {content first second t u : String} {s s' : Insertion}
    (hcontent : ¬ blockOpening <:+: content.toList) (hs : s.Unmarked)
    (ht : splice content first s.library s.decls s.language = .ok t)
    (hu : splice t second s'.library s'.decls s'.language = .ok u) :
    ∃ front back indent indent',
      content.toList = front ++ back ∧
      firstMatch? (classOpening first.toList) none content.toList = some (indent, back) ∧
      headerIndent? second.toList t.toList = some indent' ∧
      t.toList = front ++ '\n' :: (s.block indent ++ '\n' :: dropLineEnds back) ∧
      u.toList = front ++ '\n' :: (s'.block indent' ++ '\n' :: dropLineEnds back) ∧
      ∀ line, line ∈ lines u.toList ↔ line ∈ lines (front ++ ['\n']) ∨
        line ∈ lines (s'.block indent') ∨ line ∈ lines ('\n' :: dropLineEnds back) := by
  rw [splice_eq_ok_iff, spliceText_eq_ok_iff] at ht hu
  obtain ⟨indent, back, hheader, ht⟩ := ht
  obtain ⟨indent', back', hheader', hu⟩ := hu
  have hindent := isSpaceOrTab_of_firstMatch? hheader
  have hcut := take_append_rest hheader
  have haround := around_of_eq_none (markedBlock?_eq_none hcontent blockClosing) back
  generalize content.toList.take (content.toList.length - back.length) = front at hcut haround
  have hopen : ¬ blockOpening <:+: front ++ ['\n'] := by
    refine not_isInfix_concat (by decide) (by decide) fun hin => hcontent ?_
    rw [← hcut]
    exact hin.trans (List.prefix_append front back).isInfix
  rw [haround] at ht
  rw [ht, around_block hs hindent hopen, dropBlankLine_append_blockIndent (lastLine_concat_feed front)
    hindent] at hu
  refine ⟨front, back, indent, indent', hcut.symm, hheader, headerIndent?_eq hheader', ?_, ?_, ?_⟩
  · rw [ht, List.append_assoc, List.singleton_append]
  · rw [hu, List.append_assoc, List.singleton_append]
  · intro line
    obtain ⟨body, hbody⟩ : ∃ body, s'.block indent' = body ++ ['\n'] := by
      refine ⟨blockIndent indent' ++ (blockOpening ++
        (blockBody s' (blockIndent indent') ++ blockClosing)), ?_⟩
      rw [block_eq_append]
      simp only [List.append_assoc]
    have hlines : lines u.toList = lines (front ++ ['\n']) ++ (lines (s'.block indent') ++
        lines ('\n' :: dropLineEnds back)) := by
      rw [hu, hbody]
      simp only [List.append_assoc, List.singleton_append]
      rw [lines_append_feed, lines_append_feed body]
    rw [hlines, List.mem_append, List.mem_append]

/-- The second class may stand above the first, and the indent of its header is that of the block. -/
theorem splice_two_classes_above :
    let s : Insertion := ⟨"x", [.ofMethod "p.A" "f" ⟨[.primitive .int], .void⟩], .kotlin⟩
    let s' : Insertion := ⟨"y", [.ofMethod "p.B" "g" ⟨[], .string⟩], .java⟩
    let content := "package p\n\t class B : A() \x7b \x7d\nopen class A \x7b\r\n\n  val a = 1\n\x7d\n"
    let above := "package p\n\t class B : A() \x7b \x7d\nopen class A \x7b\n"
    let below := "\n  val a = 1\n\x7d\n"
    let t := above ++ String.ofList (s.block []) ++ below
    let u := above ++ String.ofList (s'.block ['\t', ' ']) ++ below
    splice content "A" s.library s.decls s.language = .ok t ∧
      splice t "B" s'.library s'.decls s'.language = .ok u ∧
      ∃ front back, content.toList = front ++ back ∧
        ∀ line, line ∈ lines u.toList ↔ line ∈ lines (front ++ ['\n']) ∨
          line ∈ lines (s'.block ['\t', ' ']) ∨ line ∈ lines ('\n' :: dropLineEnds back) := by
  intro s s' content above below t u
  have ht : splice content "A" s.library s.decls s.language = .ok t := by
    rw [splice_eq_ok_iff]
    simp only [t, above, below, String.toList_append, String.toList_ofList]
    repeat rw [String.toList_ofList]
    decide +kernel
  have hu : splice t "B" s'.library s'.decls s'.language = .ok u := by
    rw [splice_eq_ok_iff]
    simp only [t, u, above, below, String.toList_append, String.toList_ofList]
    repeat rw [String.toList_ofList]
    decide +kernel
  obtain ⟨front, back, _, indent', hcut, -, hindent, -, -, hlines⟩ :=
    splice_two_classes (by decide +kernel) (by decide +kernel) ht hu
  have hspaces : headerIndent? "B".toList t.toList = some ['\t', ' '] := by
    simp only [t, above, below, String.toList_append, String.toList_ofList]
    repeat rw [String.toList_ofList]
    decide +kernel
  cases hspaces.symm.trans hindent
  exact ⟨ht, hu, front, back, hcut, hlines⟩

/-- The declaration of the first class is lost, and that of the second class stands in the first. -/
theorem splice_two_classes_lost :
    let s : Insertion := ⟨"x", [.ofMethod "A" "f" ⟨[], .void⟩], .java⟩
    let s' : Insertion := ⟨"x", [.ofMethod "B" "g" ⟨[], .void⟩], .java⟩
    let block (line : String) := "    //<RustJNI>\n" ++ "    // auto-generated code\n" ++ line ++ "\n" ++
      "    static \x7b System.loadLibrary(\"x\"); \x7d\n" ++ "    //</RustJNI>\n"
    let t := "class A \x7b\n" ++ block "    private static native void f();\n" ++
      "\n\x7d\n\nclass B \x7b\n\x7d\n"
    let u := "class A \x7b\n" ++ block "    private static native void g();\n" ++
      "\n\x7d\n\nclass B \x7b\n\x7d\n"
    splice "class A \x7b\n\x7d\n\nclass B \x7b\n\x7d\n" "A" s.library s.decls s.language = .ok t ∧
      splice t "B" s'.library s'.decls s'.language = .ok u ∧
      "    private static native void f();".toList ∉ lines u.toList := by
  intro s s' block t u
  rw [splice_eq_ok_iff, splice_eq_ok_iff]
  simp only [t, u, block, String.toList_append]
  repeat rw [String.toList_ofList]
  decide +kernel

end JniLink.Host
