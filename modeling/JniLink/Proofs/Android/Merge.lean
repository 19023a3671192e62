import JniLink.Android.Toolchain
import JniLink.Proofs.Text.Marked

/-!
# Merging does not remember

A merge keeps what stands around the block of a configuration file and changes the block alone. Where
the block is appended, an empty line is set before it once, and belongs to what stands around it from
then on (`around_merge`). So after any number of merges the file is the one that the last of them
makes of the first text.

The law needs the first opening marker of the first text to be closed. Behind one that is left open
the appended block would be found from there on, and the text between the two would be taken for a
part of it.
-/

namespace JniLink.Android.Toolchain

open JniLink.Text

/-- A text that begins with the opening marker and ends with the line of the closing one, which it
has nowhere else. -/
structure IsBlock (block : String) : Prop where
  starts : blockOpening.toList <+: block.toList
  ends : blockClosing.toList ++ ['\n'] <:+ block.toList
  once : ∀ before after, block.toList = before ++ (blockClosing.toList ++ after) → after = ['\n']

/-- No opening marker stands in a text, or a closing one stands behind the first of them. -/
def Closed (existing : String) : Prop :=
  ∀ found ∈ cut? blockOpening.toList existing.toList, blockClosing.toList <:+: found.2

instance decidableClosed (existing : String) : Decidable (Closed existing) :=
  inferInstanceAs (Decidable (∀ found ∈ cut? _ _, _))

/-! ## Blocks -/

theorem exists_cut?_of_isBlock {block : String} (h : IsBlock block) :
    ∃ body, cut? blockClosing.toList block.toList = some (body, ['\n']) := by
  obtain ⟨front, hfront⟩ := h.ends
  have hin : blockClosing.toList <:+: block.toList :=
    ⟨front, ['\n'], by rw [← hfront, List.append_assoc]⟩
  obtain ⟨body, after, hcut⟩ := exists_cut?_of_isInfix hin
  obtain rfl := h.once body after (append_of_cut? hcut)
  exact ⟨body, hcut⟩

/-- The closing marker stands nowhere else if its first occurrence is at the end. -/
theorem isBlock_of_cut? {block : String} {body : List Char}
    (starts : blockOpening.toList <+: block.toList)
    (h : cut? blockClosing.toList block.toList = some (body, ['\n'])) : IsBlock block where
  starts := starts
  ends := ⟨body, (append_of_cut? h).symm⟩
  once _ _ hblock := eq_of_cut?_concat (by decide) (by decide) h hblock

theorem isBlock_iff {block : String} : IsBlock block ↔ blockOpening.toList <+: block.toList ∧
    (cut? blockClosing.toList block.toList).map Prod.snd = some ['\n'] := by
  constructor
  · intro h
    obtain ⟨body, hcut⟩ := exists_cut?_of_isBlock h
    exact ⟨h.starts, by rw [hcut]; rfl⟩
  · rintro ⟨starts, h⟩
    obtain ⟨⟨body, after⟩, hcut, rfl⟩ := Option.map_eq_some_iff.mp h
    exact isBlock_of_cut? starts hcut

instance decidableIsBlock (block : String) : Decidable (IsBlock block) :=
  decidable_of_iff _ isBlock_iff.symm

/-- A generated block is one, unless a tool is named with the closing marker. -/
theorem isBlock_block {bin : Path} {toolchains : List Toolchain}
    (h : ¬ blockClosing.toList <:+: (Toml.Table.write (table bin toolchains)).toList) :
    IsBlock (block bin toolchains) := by
  have hfront : Apart blockClosing.toList
      (blockOpening.toList ++ "\n#auto-generated code\n".toList) := by decide
  have hfeed : "\n".toList = ['\n'] := rfl
  have hblock : (block bin toolchains).toList = blockOpening.toList ++
      "\n#auto-generated code\n".toList ++ (Toml.Table.write (table bin toolchains)).toList ++
        (blockClosing.toList ++ ['\n']) := by
    simp only [block, String.toList_append, List.append_assoc, hfeed]
  have hcut := cut?_append_of_head_notMem (by decide : '#' ∉ "</RustJNI>".toList)
    (hfront.not_isInfix_append h) ['\n']
  refine isBlock_of_cut? ?_ (by rw [hblock]; exact hcut)
  rw [hblock, List.append_assoc, List.append_assoc]
  exact List.prefix_append _ _

/-! ## What stands around a block -/

/-- What comes between a text and a block that is appended to it. -/
def gap (existing : List Char) : List Char :=
  if existing = [] then [] else if existing.getLast? = some '\n' then ['\n'] else ['\n', '\n']

/-- What a merge puts before the block, and what it puts behind. -/
def around (existing : List Char) : List Char × List Char :=
  match markedBlock? blockOpening.toList blockClosing.toList existing with
  | some (before, after) => (dropBlankLine before, afterLine after)
  | none => (existing ++ gap existing, [])

theorem toList_merge (existing block : String) : (merge existing block).toList =
    (around existing.toList).1 ++ (block.toList ++ (around existing.toList).2) := by
  rw [merge, replaceBlock?_eq_map, around]
  cases markedBlock? blockOpening.toList blockClosing.toList existing.toList with
  | some found => exact String.toList_ofList
  | none =>
    simp only [Option.map_none, List.append_nil, gap]
    split
    next hempty =>
      rw [hempty]
      rfl
    next hne =>
      have hne' : existing.toList ≠ [] := fun hnil => hne (String.toList_eq_nil_iff.mp hnil)
      rw [if_neg hne']
      split <;> simp only [String.toList_append, List.append_assoc] <;> rfl

theorem merge_congr {existing existing' : String}
    (h : around existing.toList = around existing'.toList) (block : String) :
    merge existing block = merge existing' block := by
  rw [← String.toList_inj, toList_merge, toList_merge, h]

theorem lastLine_append_gap (existing : List Char) : lastLine (existing ++ gap existing) = [] := by
  unfold gap
  split
  next hnil =>
    rw [hnil]
    rfl
  next =>
    split
    · exact lastLine_concat_feed existing
    · rw [List.append_cons]
      exact lastLine_concat_feed _

/-- The text before the block ends with a line of its own, so that nothing is dropped from it again. -/
theorem dropBlankLine_around (existing : List Char) :
    dropBlankLine (around existing).1 = (around existing).1 := by
  unfold around
  split
  · exact dropBlankLine_dropBlankLine _
  · exact dropBlankLine_of_lastLine_eq_nil (lastLine_append_gap existing)

theorem not_isInfix_append_gap {existing : List Char}
    (h : ¬ blockOpening.toList <:+: existing) :
    ¬ blockOpening.toList <:+: existing ++ gap existing := by
  have hone := not_isInfix_concat (by decide : '\n' ∉ blockOpening.toList) (by decide) h
  unfold gap
  split
  · rwa [List.append_nil]
  · split
    · exact hone
    · have htwo := not_isInfix_concat (by decide : '\n' ∉ blockOpening.toList) (by decide) hone
      rwa [List.append_assoc] at htwo

theorem not_isInfix_around {existing : String} (h : Closed existing) :
    ¬ blockOpening.toList <:+: (around existing.toList).1 := by
  unfold around
  split
  next before after hfound =>
    obtain ⟨r, s, hcut, -⟩ := markedBlock?_eq_some_iff.mp hfound
    exact not_isInfix_dropBlankLine (by decide) hcut
  next hnone =>
    apply not_isInfix_append_gap
    intro hin
    obtain ⟨before, r, hcut⟩ := exists_cut?_of_isInfix hin
    exact markedBlock?_eq_none_iff.mp hnone before r hcut
      ((h (before, r) hcut).trans (List.suffix_append _ r).isInfix)

/-! ## Merging -/

/-- A merge keeps what stands around the block. -/
theorem around_merge {existing block : String}
    (h : ¬ blockOpening.toList <:+: (around existing.toList).1) (hblock : IsBlock block) :
    around (merge existing block).toList = around existing.toList := by
  obtain ⟨body, hbody⟩ := hblock.starts
  obtain ⟨front, hcut⟩ := exists_cut?_of_isBlock hblock
  have hopening : cut? blockOpening.toList ((around existing.toList).1 ++
      (block.toList ++ (around existing.toList).2)) =
        some ((around existing.toList).1, body ++ (around existing.toList).2) := by
    rw [← hbody, List.append_assoc]
    exact cut?_append_of_head_notMem (by decide : '#' ∉ "<RustJNI>".toList) h _
  have hclosing := cut?_append_right (by decide) hcut (around existing.toList).2
  rw [← hbody, List.append_assoc] at hclosing
  have hfound := markedBlock?_eq_some_iff.mpr ⟨_, _, hopening, hclosing⟩
  have hline (rest : List Char) : afterLine (['\n'] ++ rest) = rest := rfl
  rw [toList_merge, around, hfound]
  simp only [dropBlankLine_around, hline]

theorem around_foldl_merge {existing : String} {blocks : List String}
    (h : ¬ blockOpening.toList <:+: (around existing.toList).1) (hblocks : ∀ b ∈ blocks, IsBlock b) :
    around (blocks.foldl merge existing).toList = around existing.toList := by
  induction blocks generalizing existing with
  | nil => rfl
  | cons block blocks ih =>
    rw [List.forall_mem_cons] at hblocks
    have hone := around_merge h hblocks.1
    rw [List.foldl_cons, ih (by rwa [hone]) hblocks.2, hone]

/-- Merges one after another leave the text that the last of them leaves alone. -/
theorem foldl_merge_concat {existing : String} (h : Closed existing) {blocks : List String}
    (hblocks : ∀ b ∈ blocks, IsBlock b) (last : String) :
    (blocks ++ [last]).foldl merge existing = merge existing last := by
  rw [List.foldl_append, List.foldl_cons, List.foldl_nil]
  exact merge_congr (around_foldl_merge (not_isInfix_around h) hblocks) last

/-- The old block may be indented, hold a second opening marker, and have text behind it on its last
line, which goes with it. -/
theorem foldl_merge_concat_indented :
    (["#<RustJNI>\nx = 1\n#</RustJNI>\n", "#<RustJNI>#<RustJNI>#</RustJNI>\n"] ++
        ["#<RustJNI>\ny = 2\n#</RustJNI>\n"]).foldl merge
          "a = 1\n\t #<RustJNI>\n#<RustJNI>\n#</RustJNI> # end\n#</RustJNI>" =
      "a = 1\n#<RustJNI>\ny = 2\n#</RustJNI>\n#</RustJNI>" :=
  (foldl_merge_concat (by decide +kernel) (by decide +kernel) _).trans (by decide +kernel)

end JniLink.Android.Toolchain
