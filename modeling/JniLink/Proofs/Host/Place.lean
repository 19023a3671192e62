import JniLink.Proofs.Host.Resplice

/-!
# Where the block of a class is put

The header of a class stands at the start of a line: an indent, words, `class` or `object`, and the
name. A block that is not there yet is put behind the first brace behind the name, of the first such
header in the text, and all other text is kept.

That brace opens the class if the class has a body, that is, if no other class begins before the
brace. Nothing looks for that: behind the header of a class without a body the brace is the one of
the next class, and the block is put into that one.

## What is not decided

Headers are read in the text as it is. Whether one stands in a comment or a literal, and whether a
brace behind the name belongs to a parameter, is not asked here.
-/

namespace JniLink.Host

open JniLink.Text

variable {name t r rest : List Char}

/-! ## The header -/

/-- A header of the class in a text, and what stands around it. -/
structure ClassHeader (content name : List Char) where
  /-- The lines before the one of the header. -/
  above : List Char
  indent : List Char
  words : List Char
  keyword : List Char
  gap : List Char
  /-- The text behind the name. -/
  behind : List Char
  eq_append : content = above ++ (indent ++ (words ++ (keyword ++ (gap ++ (name ++ behind)))))
  startsLine : (lastOr none above).all (· == '\n') = true
  isIndent : ∀ c ∈ indent, isSpaceOrTab c = true
  headerWords : HeaderWords words
  isKeyword : keyword = "class".toList ∨ keyword = "object".toList
  gap_ne : gap ≠ []
  isGap : ∀ c ∈ gap, isSpaceOrTab c = true
  endsName : isBoundary (lastOr (some ' ') name) behind = true

theorem isSpaceOrTab_head?_keyword {keyword : List Char}
    (h : keyword = "class".toList ∨ keyword = "object".toList) (r : List Char) :
    ∀ c ∈ (keyword ++ r).head?, isSpaceOrTab c = false := by
  rcases h with rfl | rfl
  · rintro _ ⟨⟩
    decide
  · rintro _ ⟨⟩
    decide

theorem isSome_classNamed? {keyword gap place : List Char}
    (hkeyword : keyword = "class".toList ∨ keyword = "object".toList) (hne : gap ≠ [])
    (hgap : ∀ c ∈ gap, isSpaceOrTab c = true) (hread : (nameAndBrace? name place).isSome = true) :
    (classNamed? name (keyword ++ (gap ++ place))).isSome = true := by
  have hplace : place ∈ afterSpaces (gap ++ place) := mem_afterSpaces_iff.mpr ⟨gap, hne, hgap, rfl⟩
  have hfound : ((afterSpaces (gap ++ place)).findSome? (nameAndBrace? name)).isSome = true :=
    List.findSome?_isSome_iff.mpr ⟨place, hplace, hread⟩
  have hword : stripStart? keyword (keyword ++ (gap ++ place)) = some (gap ++ place) :=
    stripStart?_eq_some_iff.mpr rfl
  rcases hkeyword with rfl | rfl
  · rw [classNamed?, hword]
    exact hfound
  · have hother : stripStart? "class".toList ("object".toList ++ (gap ++ place)) = none := rfl
    rw [classNamed?, hother, hword]
    exact hfound

namespace ClassHeader

variable {content : List Char}

/-- The line of the header, and all that is below. -/
def line (h : ClassHeader content name) : List Char :=
  h.indent ++ (h.words ++ (h.keyword ++ (h.gap ++ (name ++ h.behind))))

/-- The text up to the name. -/
def front (h : ClassHeader content name) : List Char :=
  h.above ++ (h.indent ++ (h.words ++ (h.keyword ++ h.gap)))

theorem eq_above_append (h : ClassHeader content name) : content = h.above ++ h.line :=
  h.eq_append

theorem eq_front_append (h : ClassHeader content name) : content = h.front ++ (name ++ h.behind) := by
  rw [front]
  simp only [List.append_assoc]
  exact h.eq_append

/-- A header with a brace behind it is read at the start of its line. -/
theorem isSome_classOpening (h : ClassHeader content name) (hbrace : '\x7b' ∈ h.behind) :
    (classOpening name (lastOr none h.above) h.line).isSome = true := by
  obtain ⟨between, rest, hbehind, hbetween⟩ := List.eq_append_cons_of_mem hbrace
  have hedge := h.endsName
  rw [hbehind] at hedge
  have hread : nameAndBrace? name (name ++ h.behind) = some rest :=
    nameAndBrace?_eq_some_iff.mpr ⟨between, by rw [hbehind], hbetween, hedge⟩
  have hclass := isSome_classNamed? h.isKeyword h.gap_ne h.isGap (by rw [hread]; rfl)
  have hkeyword := isSpaceOrTab_head?_keyword h.isKeyword (h.gap ++ (name ++ h.behind))
  have hwords := h.headerWords.mem_afterHeaderWords hkeyword
  have hdrop : h.line.dropWhile isSpaceOrTab =
      h.words ++ (h.keyword ++ (h.gap ++ (name ++ h.behind))) :=
    dropWhile_append_of_head? h.isIndent (h.headerWords.head?_append hkeyword)
  have hfound : ((afterHeaderWords (h.line.dropWhile isSpaceOrTab)).findSome?
      (classNamed? name)).isSome = true := by
    rw [List.findSome?_isSome_iff, hdrop]
    exact ⟨_, hwords, hclass⟩
  obtain ⟨found, hfound⟩ := Option.isSome_iff_exists.mp hfound
  rw [classOpening, if_pos h.startsLine, hfound]
  rfl

/-- No header with a brace stands further up than where one is first read. -/
theorem length_le_of_readsNothing (h : ClassHeader content name) (hbrace : '\x7b' ∈ h.behind)
    {front t : List Char} (hcut : content = front ++ t)
    (hnothing : ReadsNothing (classOpening name) none front t) : front.length ≤ h.above.length := by
  by_contra hlt
  rcases List.append_eq_append_iff.mp (hcut.symm.trans h.eq_above_append) with
    ⟨u, hu, -⟩ | ⟨u, rfl, hline⟩
  · rw [hu, List.length_append] at hlt
    omega
  · cases u with
    | nil =>
      rw [List.append_nil] at hlt
      exact hlt le_rfl
    | cons c u =>
      have hread := h.isSome_classOpening hbrace
      rw [hline, readsNothing_iff_forall.mp hnothing _ c u rfl] at hread
      cases hread

end ClassHeader

/-- The header that is found is the first one with a brace behind it. -/
theorem exists_header_of_firstMatch? {content indent : List Char}
    (h : firstMatch? (classOpening name) none content = some (indent, rest)) :
    ∃ (header : ClassHeader content name) (between : List Char),
      header.indent = indent ∧ header.behind = between ++ '\x7b' :: rest ∧ '\x7b' ∉ between ∧
        ∀ other : ClassHeader content name, '\x7b' ∈ other.behind →
          header.above.length ≤ other.above.length := by
  obtain ⟨above, line, rfl, hnothing, hread⟩ := exists_readsNothing_of_firstMatch? h
  obtain ⟨hstart, hindent, words, keyword, gap, between, rfl, hwords, hkeyword, hne, hgap, hbetween,
    hedge⟩ := exists_of_classOpening hread
  refine ⟨⟨above, indent, words, keyword, gap, between ++ '\x7b' :: rest, rfl, hstart, hindent, hwords,
    hkeyword, hne, hgap, hedge⟩, between, rfl, rfl, hbetween, fun other hbrace => ?_⟩
  exact other.length_le_of_readsNothing hbrace rfl hnothing

/-- A text is refused if it has no header of the class with a brace behind it, and only then. -/
theorem splice_eq_missingClass_iff {content name : String} {s : Insertion} :
    splice content name s.library s.decls s.language = .error .missingClass ↔
      ∀ header : ClassHeader content.toList name.toList, '\x7b' ∉ header.behind := by
  constructor
  · intro h header hbrace
    have hsome := isSome_firstMatch? (header.isSome_classOpening hbrace)
    rw [← header.eq_above_append] at hsome
    obtain ⟨⟨indent, rest⟩, hheader⟩ := Option.isSome_iff_exists.mp hsome
    have hok := (spliceText_eq_ok_iff (s := s)).mpr ⟨indent, rest, hheader, rfl⟩
    rw [splice, hok] at h
    cases h
  · intro h
    cases hheader : firstMatch? (classOpening name.toList) none content.toList with
    | none =>
      rw [splice, spliceText, hheader]
      rfl
    | some found =>
      obtain ⟨header, between, -, hbehind, -⟩ := exists_header_of_firstMatch? hheader
      refine absurd ?_ (h header)
      rw [hbehind]
      exact List.mem_append_right between List.mem_cons_self

/-! ## The body of a class -/

/-- The class has a body of its own: a brace opens behind its name, and no other class begins before
that brace. -/
def ClassHeader.HasBody {content : List Char} (h : ClassHeader content name) : Prop :=
  ∃ own rest, h.behind = own ++ '\x7b' :: rest ∧
    ReadsNothing classHeader (lastOr (some ' ') name) own ('\x7b' :: rest)

/-- It is enough to look before the first brace. -/
theorem ClassHeader.hasBody_iff {content between : List Char} {h : ClassHeader content name}
    (hbehind : h.behind = between ++ '\x7b' :: rest) (hbetween : '\x7b' ∉ between) :
    h.HasBody ↔
      ReadsNothing classHeader (lastOr (some ' ') name) between ('\x7b' :: rest) := by
  constructor
  · rintro ⟨own, r, hown, hnothing⟩
    rcases List.append_eq_append_iff.mp (hbehind.symm.trans hown) with ⟨u, rfl, hu⟩ | ⟨u, rfl, hu⟩
    · rw [readsNothing_append_iff, ← hu] at hnothing
      exact hnothing.1
    · cases u with
      | nil => rwa [List.append_nil, ← List.nil_append ('\x7b' :: rest), ← hu]
      | cons c u =>
        cases hu
        exact absurd (List.mem_append_right own List.mem_cons_self) hbetween
  · intro hnothing
    exact ⟨between, rest, hbehind, hnothing⟩

/-- An insertion into a text without a block puts it behind the first brace behind the name, in the
first header of the class that has one; and no other class begins between the two if and only if
the class has a body of its own. -/
theorem splice_into_class {content name t : String} {s : Insertion}
    (hcontent : ¬ blockOpening <:+: content.toList)
    (h : splice content name s.library s.decls s.language = .ok t) :
    ∃ (header : ClassHeader content.toList name.toList) (between rest : List Char),
      (∀ other : ClassHeader content.toList name.toList, '\x7b' ∈ other.behind →
        header.above.length ≤ other.above.length) ∧
      header.behind = between ++ '\x7b' :: rest ∧ '\x7b' ∉ between ∧
      t.toList = header.front ++ (name.toList ++ (between ++ '\x7b' :: '\n' ::
        (s.block header.indent ++ '\n' :: dropLineEnds rest))) ∧
      (ReadsNothing classHeader (lastOr (some ' ') name.toList) between ('\x7b' :: rest) ↔
        header.HasBody) := by
  rw [splice_eq_ok_iff, spliceText_eq_ok_iff] at h
  obtain ⟨indent, rest, hheader, ht⟩ := h
  obtain ⟨header, between, rfl, hbehind, hbetween, hfirst⟩ := exists_header_of_firstMatch? hheader
  refine ⟨header, between, rest, hfirst, hbehind, hbetween, ?_,
    (header.hasBody_iff hbehind hbetween).symm⟩
  have haround := around_of_eq_none (markedBlock?_eq_none hcontent blockClosing) rest
  have hhead : content.toList.take (content.toList.length - rest.length) =
      header.front ++ (name.toList ++ (between ++ ['\x7b'])) := by
    have hcut := (take_append_rest hheader).trans header.eq_front_append
    have hassoc : header.front ++ (name.toList ++ header.behind) =
        header.front ++ (name.toList ++ (between ++ ['\x7b'])) ++ rest := by
      rw [hbehind]
      simp only [List.append_assoc, List.singleton_append]
    exact List.append_cancel_right (hcut.trans hassoc)
  rw [ht, haround, hhead]
  simp only [List.append_assoc, List.cons_append, List.nil_append]

/-- The header may have a line end in it, and one without a brace behind it may stand below. -/
theorem splice_into_class_two_lines :
    let s : Insertion := ⟨"x", [.ofMethod "p.C" "f" ⟨[.primitive .int], .void⟩], .kotlin⟩
    let front := "class CD \x7b\n\x7d\n\topen class "
    let between := "(val a: Int)\n\t\t: B() "
    let below := "\tval b = 1\n\t\x7d\nclass C"
    let content := front ++ "C" ++ between ++ "\x7b\r\n" ++ below
    let t := front ++ "C" ++ between ++ "\x7b\n" ++ String.ofList (s.block ['\t']) ++ "\n" ++ below
    splice content "C" s.library s.decls s.language = .ok t ∧
      ∃ (header : ClassHeader content.toList "C".toList) (between rest : List Char),
        header.behind = between ++ '\x7b' :: rest ∧ '\x7b' ∉ between ∧
          t.toList = header.front ++ ("C".toList ++ (between ++ '\x7b' :: '\n' ::
            (s.block header.indent ++ '\n' :: dropLineEnds rest))) := by
  intro s front between below content t
  have h : splice content "C" s.library s.decls s.language = .ok t := by
    rw [splice_eq_ok_iff]
    simp only [content, t, front, between, below, String.toList_append, String.toList_ofList]
    repeat rw [String.toList_ofList]
    decide +kernel
  obtain ⟨header, between, rest, -, hbehind, hbetween, ht, -⟩ :=
    splice_into_class (by decide +kernel) h
  exact ⟨h, header, between, rest, hbehind, hbetween, ht⟩

/-- The class has no body, and the block is put into the class below. -/
theorem splice_into_next_class :
    let s : Insertion := ⟨"x", [.ofMethod "C" "f" ⟨[], .void⟩], .java⟩
    let between := "\n\nclass D "
    let content := "class C" ++ between ++ "\x7b\n\x7d\n"
    let t := "class C" ++ between ++ "\x7b\n" ++ "    //<RustJNI>\n" ++
      "    // auto-generated code\n" ++ "    private static native void f();\n\n" ++
      "    static \x7b System.loadLibrary(\"x\"); \x7d\n" ++ "    //</RustJNI>\n" ++ "\n\x7d\n"
    ¬ blockOpening <:+: content.toList ∧
      splice content "C" s.library s.decls s.language = .ok t ∧
      allMatches classHeader (some 'C') 0 between.toList = ["D".toList] := by
  intro s between content t
  rw [splice_eq_ok_iff]
  simp only [content, t, between, String.toList_append]
  repeat rw [String.toList_ofList]
  decide +kernel

end JniLink.Host
