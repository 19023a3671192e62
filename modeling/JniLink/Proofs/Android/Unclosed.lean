import JniLink.Proofs.Android.Merge

/-!
# Merging into a text without a block

A text may hold an opening marker that no closing one follows. A block that is appended to it is
found from that marker on by the next merge, which takes everything behind the marker for a part of
the block. So what was there is kept by the first merge, and by all others only if no opening marker
stood in it, or if what stood there from the marker on is how the last block begins.

Closing markers do no harm in such a text: they are looked for behind an opening one.
-/

namespace JniLink.Android.Toolchain

open JniLink.Text

/-- Behind no opening marker stands a closing one. -/
def NoBlock (existing : String) : Prop :=
  ∀ before rest, existing.toList = before ++ (blockOpening.toList ++ rest) →
    ¬ blockClosing.toList <:+: rest

/-- It is enough to look behind the first opening marker. -/
theorem noBlock_iff {existing : String} : NoBlock existing ↔
    ∀ found ∈ cut? blockOpening.toList existing.toList, ¬ blockClosing.toList <:+: found.2 := by
  constructor
  · intro h found hfound
    exact h found.1 found.2 (append_of_cut? hfound)
  · intro h before rest heq hclosing
    have hopening : blockOpening.toList <:+: existing.toList :=
      ⟨before, rest, by rw [heq, List.append_assoc]⟩
    obtain ⟨x, y, hcut⟩ := exists_cut?_of_isInfix hopening
    apply h (x, y) hcut
    exact hclosing.trans (suffix_of_cut? hcut heq).isInfix

instance decidableNoBlock (existing : String) : Decidable (NoBlock existing) :=
  decidable_of_iff _ noBlock_iff.symm

/-! ## The first merge -/

variable {existing : String}

theorem not_isInfix_of_noBlock (h : NoBlock existing) {before rest : List Char}
    (hcut : cut? blockOpening.toList existing.toList = some (before, rest)) :
    ¬ blockClosing.toList <:+: blockOpening.toList ++ rest := by
  have hapart : Apart blockClosing.toList blockOpening.toList := by decide
  exact hapart.not_isInfix_append (h before rest (append_of_cut? hcut))

theorem around_of_noBlock (h : NoBlock existing) :
    around existing.toList = (existing.toList ++ gap existing.toList, []) := by
  have hnone : markedBlock? blockOpening.toList blockClosing.toList existing.toList = none :=
    markedBlock?_eq_none_iff.mpr fun _ _ hcut => not_isInfix_of_noBlock h hcut
  rw [around, hnone]

theorem toList_merge_of_noBlock (h : NoBlock existing) (block : String) :
    (merge existing block).toList =
      existing.toList ++ (gap existing.toList ++ block.toList) := by
  rw [toList_merge, around_of_noBlock h, List.append_nil, List.append_assoc]

/-- What is put before a block that is appended ends with a line feed, and so no closing marker
begins in it. -/
theorem apart_append_gap {front t : List Char} (hne : t ≠ [])
    (h : ¬ blockClosing.toList <:+: front) : Apart blockClosing.toList (front ++ gap t) := by
  have hone : Apart blockClosing.toList (front ++ ['\n']) := apart_concat (by decide) h
  unfold gap
  rw [if_neg hne]
  split
  · exact hone
  · have htwo : Apart blockClosing.toList ['\n'] := by decide
    have happend := hone.append htwo
    rwa [List.append_assoc] at happend

/-! ## The merges behind it -/

section Unclosed

variable {before rest : List Char}
  (hcut : cut? blockOpening.toList existing.toList = some (before, rest))
include hcut

/-- Once a block is appended, everything from the unclosed marker on counts as a part of it. -/
theorem around_merge_of_unclosed (h : NoBlock existing) {block : String} (hblock : IsBlock block) :
    around (merge existing block).toList = (dropBlankLine before, []) := by
  have hne : existing.toList ≠ [] := by
    rw [append_of_cut? hcut]
    exact List.append_ne_nil_of_right_ne_nil _ (List.cons_ne_nil _ _)
  obtain ⟨body, hbody⟩ := exists_cut?_of_isBlock hblock
  have hopening := cut?_append_right (by decide) hcut (gap existing.toList ++ block.toList)
  have hapart := apart_append_gap hne (not_isInfix_of_noBlock h hcut)
  have hclosing := cut?_append hapart block.toList
  rw [hbody, List.append_assoc, List.append_assoc] at hclosing
  have hfound := markedBlock?_eq_some_iff.mpr ⟨_, _, hopening, hclosing⟩
  rw [toList_merge_of_noBlock h, around, hfound]
  rfl

/-- From the second merge on the last block stands where the unclosed marker stood, and nothing of
what was behind the marker is left. -/
theorem toList_foldl_merge_of_unclosed (h : NoBlock existing) {blocks : List String}
    (hblocks : ∀ b ∈ blocks, IsBlock b) (hne : blocks ≠ []) (last : String) :
    ((blocks ++ [last]).foldl merge existing).toList = dropBlankLine before ++ last.toList := by
  obtain ⟨block, blocks, rfl⟩ := List.exists_cons_of_ne_nil hne
  rw [List.forall_mem_cons] at hblocks
  have hone := around_merge_of_unclosed hcut h hblocks.1
  have hfront : ¬ blockOpening.toList <:+: (around (merge existing block).toList).1 := by
    rw [hone]
    exact not_isInfix_dropBlankLine (by decide) hcut
  have hmany := around_foldl_merge hfront hblocks.2
  rw [List.cons_append, List.foldl_cons, List.foldl_append, List.foldl_cons, List.foldl_nil,
    toList_merge, hmany, hone, List.append_nil]

/-- The block begins with no blank, so an indent before the marker is lost in any case. -/
theorem isPrefix_dropBlankLine_append_iff {last : String} (hlast : IsBlock last) :
    existing.toList <+: dropBlankLine before ++ last.toList ↔
      dropBlankLine before = before ∧ blockOpening.toList ++ rest <+: last.toList := by
  rw [append_of_cut? hcut]
  constructor
  · intro hprefix
    have hkept : dropBlankLine before = before := by
      by_contra hdropped
      have hblank : EndsBlank before := by
        by_contra hnot
        exact hdropped (dropBlankLine_of_not_endsBlank hnot)
      rw [dropBlankLine_of_endsBlank hblank] at hprefix hdropped
      have hline : lastLine before ≠ [] :=
        fun hnil => hdropped (wholeLines_of_lastLine_eq_nil hnil)
      obtain ⟨c, line, hcons⟩ := List.exists_cons_of_ne_nil hline
      obtain ⟨body, hbody⟩ := hlast.starts
      -- the first blank of the indent would have to be the sign that the block begins with
      have hfront : before ++ (blockOpening.toList ++ rest) =
          wholeLines before ++ (c :: line ++ (blockOpening.toList ++ rest)) := by
        rw [← hcons, ← List.append_assoc (wholeLines before), wholeLines_append_lastLine]
      rw [hfront, List.prefix_append_right_inj, ← hbody] at hprefix
      obtain rfl : c = '#' := (List.cons_prefix_cons.mp hprefix).1
      exact absurd (hblank '#' (hcons ▸ List.mem_cons_self)) (by decide)
    rw [hkept, List.prefix_append_right_inj] at hprefix
    exact ⟨hkept, hprefix⟩
  · rintro ⟨hkept, hprefix⟩
    rw [hkept, List.prefix_append_right_inj]
    exact hprefix

end Unclosed

/-! ## What a run of merges keeps -/

/-- Merges one after another keep a text without a block at the front if one block is merged, if no
opening marker stood in the text, or if the last block begins like the text from the marker on. -/
theorem isPrefix_foldl_merge_iff (h : NoBlock existing) {blocks : List String} {last : String}
    (hblocks : ∀ b ∈ blocks, IsBlock b) (hlast : IsBlock last) :
    existing.toList <+: ((blocks ++ [last]).foldl merge existing).toList ↔
      blocks = [] ∨ ¬ blockOpening.toList <:+: existing.toList ∨
        ∃ before rest, cut? blockOpening.toList existing.toList = some (before, rest) ∧
          dropBlankLine before = before ∧ blockOpening.toList ++ rest <+: last.toList := by
  by_cases hnil : blocks = []
  · rw [hnil, List.nil_append, List.foldl_cons, List.foldl_nil, toList_merge_of_noBlock h]
    exact iff_of_true (List.prefix_append _ _) (Or.inl rfl)
  by_cases hopening : blockOpening.toList <:+: existing.toList
  · obtain ⟨before, rest, hcut⟩ := exists_cut?_of_isInfix hopening
    rw [toList_foldl_merge_of_unclosed hcut h hblocks hnil, isPrefix_dropBlankLine_append_iff hcut hlast]
    constructor
    · intro hkept
      exact Or.inr (Or.inr ⟨before, rest, hcut, hkept⟩)
    · rintro (habs | habs | ⟨before', rest', hcut', hkept⟩)
      · exact absurd habs hnil
      · exact absurd hopening habs
      · cases hcut.symm.trans hcut'
        exact hkept
  · have hfront : ¬ blockOpening.toList <:+: (around existing.toList).1 := by
      rw [around_of_noBlock h]
      exact not_isInfix_append_gap hopening
    rw [List.foldl_append, List.foldl_cons, List.foldl_nil, toList_merge,
      around_foldl_merge hfront hblocks, around_of_noBlock h, List.append_assoc]
    exact iff_of_true (List.prefix_append _ _) (Or.inr (Or.inl hopening))

/-- A closing marker before the opening one is text like any other, and the last block may say again
what stood behind the opening one. -/
theorem isPrefix_foldl_merge_iff_said_again :
    NoBlock "#</RustJNI>\n#<RustJNI>\nx" ∧
      "#</RustJNI>\n#<RustJNI>\nx".toList <+:
        ((["#<RustJNI>\n#</RustJNI>\n"] ++ ["#<RustJNI>\nx = 1\n#</RustJNI>\n"]).foldl merge
          "#</RustJNI>\n#<RustJNI>\nx").toList :=
  ⟨by decide +kernel, (isPrefix_foldl_merge_iff (by decide +kernel) (by decide +kernel)
    (by decide +kernel)).mpr (Or.inr (Or.inr
      ⟨"#</RustJNI>\n".toList, "\nx".toList, by decide +kernel, by decide +kernel,
        by decide +kernel⟩))⟩

/-- What stood behind an opening marker without a closing one is gone when the block is merged a
second time. -/
theorem not_isPrefix_foldl_merge_unclosed :
    NoBlock "#<RustJNI>\njobs = 2\n" ∧ IsBlock "#<RustJNI>\nx = 1\n#</RustJNI>\n" ∧
      ¬ "#<RustJNI>\njobs = 2\n".toList <+:
        (["#<RustJNI>\nx = 1\n#</RustJNI>\n", "#<RustJNI>\nx = 1\n#</RustJNI>\n"].foldl merge
          "#<RustJNI>\njobs = 2\n").toList := by
  decide +kernel

end JniLink.Android.Toolchain
