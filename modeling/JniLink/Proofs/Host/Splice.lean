import JniLink.Proofs.Host.Header
import JniLink.Proofs.Host.Declarations
import JniLink.Proofs.Text.Block

/-!
# Splicing does not remember

However many insertions were made into a class before, the last one leaves the text that it leaves
when it is made alone. The first insertion puts its block behind the brace of the class and every
later one puts its block in place of the block that is there; both come to the same text, because the
header is found again where it was, and because the lines of the block are found by its markers. So
an earlier insertion must not write the closing marker itself.
-/

namespace JniLink.Host

open JniLink.Text

/-- Declarations to be written into a class, with the library that they are for. -/
structure Insertion where
  library : String
  decls : List Declaration
  language : Language

/-- The insertions one after another, each into the text that the one before left. -/
def spliceAll (content name : String) (steps : List Insertion) : Except HostError String :=
  steps.foldlM (fun t s => splice t name s.library s.decls s.language) content

namespace Insertion

/-- Neither the library nor a function is named with the closing marker. -/
structure Unmarked (s : Insertion) : Prop where
  library : ¬ blockClosing <:+: s.library.toList
  names : ∀ d ∈ s.decls, ¬ blockClosing <:+: d.name.toList

instance decidableUnmarked (s : Insertion) : Decidable s.Unmarked :=
  decidable_of_iff
    (¬ blockClosing <:+: s.library.toList ∧ ∀ d ∈ s.decls, ¬ blockClosing <:+: d.name.toList)
    ⟨fun ⟨library, names⟩ => ⟨library, names⟩, fun h => ⟨h.library, h.names⟩⟩

/-- The block of an insertion into a class with an indent. -/
def block (s : Insertion) (indent : List Char) : List Char :=
  blockText s.library s.decls s.language (indent ++ "    ".toList)

end Insertion

/-! ## The closing marker does not stand in a block -/

section Apart

variable {front piece back : List Char} {m : Char}

theorem apart_blockClosing (h : '/' ∉ piece) : Apart blockClosing piece :=
  (apart_of_notMem h : Apart ('/' :: "/</RustJNI>".toList) piece)

theorem apart_blockOpening (h : '/' ∉ piece) : Apart blockOpening piece :=
  (apart_of_notMem h : Apart ('/' :: "/<RustJNI>".toList) piece)

/-- A name between texts without a slash. -/
theorem apart_blockClosing_around (hfront : '/' ∉ front) (hback : '/' ∉ back)
    (hm : m ∉ blockClosing) (h : ¬ blockClosing <:+: piece) :
    Apart blockClosing (front ++ piece ++ m :: back) := by
  have hcut : front ++ piece ++ m :: back = front ++ ((piece ++ [m]) ++ back) := by
    simp only [List.append_assoc, List.singleton_append]
  rw [hcut]
  exact (apart_blockClosing hfront).append ((apart_concat hm h).append (apart_blockClosing hback))

end Apart

theorem slash_notMem_spellParams (language : Language) (types : List JvmType) :
    '/' ∉ spellParams language types := by
  have hname (index : Nat) : '/' ∉ paramName index := fun h =>
    ne_of_isWord (isWord_of_mem_paramName h) (by decide) rfl
  intro h
  rcases mem_joinWith h with h | ⟨part, hpart, h⟩
  · exact absurd h (by decide)
  · obtain ⟨⟨t, index⟩, -, rfl⟩ := List.mem_map.mp hpart
    have htype := JvmType.slash_notMem_spelling language t
    cases language with
    | kotlin =>
      simp only [spellParam, List.mem_append] at h
      rcases h with (h | h) | h
      · exact hname index h
      · exact absurd h (by decide)
      · exact htype h
    | java =>
      simp only [spellParam, List.mem_append] at h
      rcases h with (h | h) | h
      · exact htype h
      · exact absurd h (by decide)
      · exact hname index h

theorem apart_declarationLine (language : Language) {d : Declaration}
    (h : ¬ blockClosing <:+: d.name.toList) :
    Apart blockClosing (declarationLine language d ++ ['\n']) := by
  have hparams := slash_notMem_spellParams language d.signature.params
  have hret := JvmType.slash_notMem_spelling language d.signature.ret
  refine Apart.append ?_ (apart_blockClosing (by decide))
  cases language with
  | kotlin =>
    have hfront : '/' ∉ "private ".toList ++ "external fun ".toList := by decide
    have hback : '/' ∉ spellParams .kotlin d.signature.params ++ ')' ::
        (if d.signature.ret = .void then []
          else ": ".toList ++ (d.signature.ret.spelling .kotlin).toList) := by
      simp only [List.mem_append, List.mem_cons, not_or]
      refine ⟨hparams, by decide, ?_⟩
      split
      · exact List.not_mem_nil
      · exact fun hmem => (List.mem_append.mp hmem).elim (by decide) hret
    have hname := apart_blockClosing_around hfront hback (by decide : '(' ∉ blockClosing) h
    rw [declarationLine_kotlin, List.append_assoc, List.cons_append]
    exact hname
  | java =>
    have hfront : '/' ∉ "private static ".toList ++ "native ".toList ++
        (d.signature.ret.spelling .java).toList ++ [' '] := by
      simp only [List.mem_append, not_or]
      exact ⟨⟨⟨by decide, by decide⟩, hret⟩, by decide⟩
    have hback : '/' ∉ spellParams .java d.signature.params ++ [')', ';'] :=
      fun hmem => (List.mem_append.mp hmem).elim hparams (by decide)
    have hname := apart_blockClosing_around hfront hback (by decide : '(' ∉ blockClosing) h
    rw [declarationLine_java]
    simp only [List.append_assoc, List.cons_append, List.nil_append] at hname ⊢
    exact hname

theorem apart_loadLines (language : Language) {library : String}
    (h : ¬ blockClosing <:+: library.toList) : Apart blockClosing (loadLines language library) := by
  have hmark : '"' ∉ blockClosing := by decide
  cases language with
  | kotlin =>
    have hback : '/' ∉ ") \x7d\n\x7d\n".toList := by decide
    exact apart_blockClosing_around (by decide) hback hmark h
  | java =>
    have hback : '/' ∉ "); \x7d\n".toList := by decide
    exact apart_blockClosing_around (by decide) hback hmark h

theorem not_infix_declarationsText {s : Insertion} (hs : s.Unmarked) :
    ¬ blockClosing <:+: declarationsText s.library s.decls s.language := by
  have hlines : Apart blockClosing (s.decls.flatMap (declarationLine s.language · ++ ['\n'])) :=
    Apart.flatMap fun d hd => apart_declarationLine s.language (hs.names d hd)
  have hload : Apart blockClosing ('\n' :: loadLines s.language s.library) :=
    Apart.append (apart_blockClosing (by decide : '/' ∉ ['\n'])) (apart_loadLines s.language hs.library)
  exact (hlines.append hload).not_isInfix (by decide)

/-- The text of a block between its markers. -/
def blockBody (s : Insertion) (indent : List Char) : List Char :=
  '\n' :: (indent ++ ("// auto-generated code\n".toList ++
    ((lines (declarationsText s.library s.decls s.language)).flatMap (indentLine indent) ++ indent)))

theorem blockText_eq_append (s : Insertion) (indent : List Char) :
    blockText s.library s.decls s.language indent =
      indent ++ (blockOpening ++ (blockBody s indent ++ (blockClosing ++ ['\n']))) := by
  simp only [blockText, blockBody, List.append_assoc, List.cons_append]

theorem apart_blockBody {s : Insertion} (hs : s.Unmarked) {indent : List Char} (h : '/' ∉ indent) :
    Apart blockClosing (blockOpening ++ blockBody s indent) := by
  have hindent := apart_blockClosing h
  have hline : ∀ line ∈ lines (declarationsText s.library s.decls s.language),
      Apart blockClosing (indentLine indent line) := by
    intro line hline
    have hinfix : ¬ blockClosing <:+: line := fun hclosing =>
      not_infix_declarationsText hs (hclosing.trans (isInfix_of_mem_lines hline))
    rw [indentLine]
    split
    · exact apart_blockClosing (by decide)
    · rw [List.append_assoc]
      exact hindent.append (apart_concat (by decide) hinfix)
  have hnote : Apart blockClosing "// auto-generated code\n".toList := by decide
  have hopening : Apart blockClosing (blockOpening ++ ['\n']) := by decide
  have hbody := hopening.append (hindent.append (hnote.append ((Apart.flatMap hline).append hindent)))
  rwa [List.append_assoc] at hbody

/-! ## One insertion -/

theorem isBlank_of_isSpaceOrTab {c : Char} (h : isSpaceOrTab c = true) : isBlank c = true := by
  rw [isSpaceOrTab, Bool.or_eq_true, beq_iff_eq, beq_iff_eq] at h
  rcases h with rfl | rfl <;> rfl

theorem splice_eq_ok_iff {content name t : String} {s : Insertion} :
    splice content name s.library s.decls s.language = .ok t ↔
      spliceText content.toList name.toList s.library s.decls s.language = .ok t.toList := by
  rw [splice]
  cases spliceText content.toList name.toList s.library s.decls s.language with
  | error e =>
    constructor
    · intro h
      cases h
    · intro h
      cases h
  | ok u =>
    simp only [Except.map, Except.ok.injEq]
    exact ⟨fun h => by rw [← h, String.toList_ofList], fun h => by rw [h, String.ofList_toList]⟩

section Splice

variable {a indent name : List Char}

/-- The text with a block behind the brace of the class. -/
def withBlock (a block rest : List Char) : List Char :=
  a ++ '\x7b' :: '\n' :: (block ++ '\n' :: rest)

/-- What stands before the rest of a text ends with the brace. -/
theorem take_brace (a rest : List Char) :
    (a ++ '\x7b' :: rest).take ((a ++ '\x7b' :: rest).length - rest.length) = a ++ ['\x7b'] := by
  rw [List.append_cons, List.length_append, Nat.add_sub_cancel, List.take_left]

theorem spliceText_first {rest : List Char} (hmarker : ¬ blockOpening <:+: a ++ '\x7b' :: rest)
    (hheader : firstMatch? (classOpening name) none (a ++ '\x7b' :: rest) = some (indent, rest))
    (s : Insertion) :
    spliceText (a ++ '\x7b' :: rest) name s.library s.decls s.language =
      .ok (withBlock a (s.block indent) (dropLineEnds rest)) := by
  have hreplace (block : List Char) :
      replaceBlock? blockOpening blockClosing block (a ++ '\x7b' :: rest) = none := by
    rw [replaceBlock?, cut?_eq_none hmarker]
  simp only [spliceText, hheader, hreplace, take_brace, withBlock, Insertion.block, List.append_assoc,
    List.cons_append, List.nil_append]

/-- A block that is there already gives way to the new one. -/
theorem spliceText_again (hmarker : ¬ blockOpening <:+: a)
    (hheader : ∀ t, firstMatch? (classOpening name) none (a ++ '\x7b' :: t) = some (indent, t))
    (hindent : ∀ c ∈ indent, isSpaceOrTab c = true) {s : Insertion} (hs : s.Unmarked)
    (rest : List Char) (s' : Insertion) :
    spliceText (withBlock a (s.block indent) rest) name s'.library s'.decls s'.language =
      .ok (withBlock a (s'.block indent) rest) := by
  have hspaces : ∀ c ∈ indent ++ "    ".toList, isSpaceOrTab c = true :=
    List.forall_mem_append.mpr ⟨hindent, by decide⟩
  have hblank : ∀ c ∈ indent ++ "    ".toList, isBlank c = true :=
    fun c hc => isBlank_of_isSpaceOrTab (hspaces c hc)
  have hfeed : '\n' ∉ indent ++ "    ".toList := fun hc => absurd (hspaces _ hc) (by decide)
  have hslash : '/' ∉ indent ++ "    ".toList := fun hc => absurd (hspaces _ hc) (by decide)
  have hfront : Apart blockOpening (a ++ ['\x7b'] ++ '\n' :: (indent ++ "    ".toList)) := by
    refine (apart_concat (by decide) hmarker).append (apart_blockOpening ?_)
    rw [List.mem_cons, not_or]
    exact ⟨by decide, hslash⟩
  have hreplace := replaceBlock?_append hfront (apart_blockBody hs hslash) hblank hfeed
    (s'.block indent) ('\n' :: rest)
  have hcut : withBlock a (s.block indent) rest = a ++ ['\x7b'] ++ '\n' ::
      (indent ++ "    ".toList ++ (blockOpening ++ (blockBody s (indent ++ "    ".toList) ++
        (blockClosing ++ '\n' :: '\n' :: rest)))) := by
    rw [withBlock, Insertion.block, blockText_eq_append]
    simp only [List.append_assoc, List.cons_append, List.nil_append]
  have hdone : a ++ ['\x7b'] ++ '\n' :: (s'.block indent ++ '\n' :: rest) =
      withBlock a (s'.block indent) rest := by
    rw [withBlock, List.append_assoc, List.singleton_append]
  have hfound : firstMatch? (classOpening name) none (withBlock a (s.block indent) rest) =
      some (indent, '\n' :: (s.block indent ++ '\n' :: rest)) := hheader _
  rw [← hcut, hdone] at hreplace
  have hblock : blockText s'.library s'.decls s'.language (indent ++ "    ".toList) =
      s'.block indent := rfl
  rw [spliceText, hfound]
  simp only [hblock, hreplace]

end Splice

/-! ## All insertions -/

theorem splice_ofList (t : List Char) (name : String) (s : Insertion) :
    splice (String.ofList t) name s.library s.decls s.language =
      (spliceText t name.toList s.library s.decls s.language).map String.ofList := by
  rw [splice, String.toList_ofList]

/-- From a text with a block on, the last insertion is the one that is seen. -/
theorem spliceAll_withBlock {a indent : List Char} {name : String} (hmarker : ¬ blockOpening <:+: a)
    (hheader : ∀ t, firstMatch? (classOpening name.toList) none (a ++ '\x7b' :: t) =
      some (indent, t))
    (hindent : ∀ c ∈ indent, isSpaceOrTab c = true) (rest : List Char) {s : Insertion}
    (hs : s.Unmarked) {steps : List Insertion} (hsteps : ∀ s ∈ steps, s.Unmarked)
    (last : Insertion) :
    spliceAll (String.ofList (withBlock a (s.block indent) rest)) name (steps ++ [last]) =
      .ok (String.ofList (withBlock a (last.block indent) rest)) := by
  have hstep (s' : Insertion) {s : Insertion} (hs : s.Unmarked) :
      splice (String.ofList (withBlock a (s.block indent) rest)) name s'.library s'.decls
        s'.language = .ok (String.ofList (withBlock a (s'.block indent) rest)) := by
    rw [splice_ofList, spliceText_again hmarker hheader hindent hs rest s']
    rfl
  induction steps generalizing s with
  | nil => exact congrArg (· >>= pure) (hstep last hs)
  | cons s' steps ih =>
    rw [List.forall_mem_cons] at hsteps
    rw [List.cons_append, spliceAll, List.foldlM_cons, hstep s' hs]
    exact ih hsteps.1 hsteps.2

/-- Insertions one after another into a text without a block succeed when the last one alone does,
and leave the same text. -/
theorem spliceAll_concat {content name : String} (hcontent : ¬ blockOpening <:+: content.toList)
    (hname : '\x7b' ∉ name.toList) {steps : List Insertion} (hsteps : ∀ s ∈ steps, s.Unmarked)
    (last : Insertion) :
    spliceAll content name (steps ++ [last]) =
      splice content name last.library last.decls last.language := by
  cases hfirst : firstMatch? (classOpening name.toList) none content.toList with
  | none =>
    have hmissing (s : Insertion) :
        splice content name s.library s.decls s.language = .error .missingClass := by
      rw [splice, spliceText, hfirst]
      rfl
    rw [hmissing last]
    cases steps with
    | nil => exact congrArg (· >>= pure) (hmissing last)
    | cons s steps =>
      rw [List.cons_append, spliceAll, List.foldlM_cons, hmissing s]
      rfl
  | some found =>
    obtain ⟨indent, rest⟩ := found
    obtain ⟨a, ha, hheader⟩ := (endsAt_classOpening hname).firstMatch?_eq_some hfirst
    obtain ⟨before, t, -, hread⟩ := exists_of_firstMatch? hfirst
    have hindent := isSpaceOrTab_of_classOpening hread
    rw [ha] at hcontent
    have hmarker : ¬ blockOpening <:+: a :=
      fun h => hcontent (h.trans (List.prefix_append a _).isInfix)
    have hone (s : Insertion) : splice content name s.library s.decls s.language =
        .ok (String.ofList (withBlock a (s.block indent) (dropLineEnds rest))) := by
      rw [splice, ha, spliceText_first hcontent (hheader rest) s]
      rfl
    rw [hone last]
    cases steps with
    | nil => exact congrArg (· >>= pure) (hone last)
    | cons s steps =>
      rw [List.forall_mem_cons] at hsteps
      rw [List.cons_append, spliceAll, List.foldlM_cons, hone s]
      exact spliceAll_withBlock hmarker hheader hindent _ hsteps.1 hsteps.2 last

/-- The header may be written over several lines, and the languages may change. -/
theorem spliceAll_concat_two_languages :
    let f := Declaration.ofMethod "p.Main" "f" ⟨[.primitive .int], .void⟩
    let g := Declaration.ofMethod "p.Main" "g" ⟨[], .array .string⟩
    spliceAll "package p\n\n  open class Main :\n    Base() \x7b\n\n    fun run() = g()\n  \x7d\n" "Main"
        ([⟨"x", [f, g], .kotlin⟩, ⟨"//<RustJNI>", [], .java⟩] ++ [⟨"y", [g], .java⟩]) =
      .ok ("package p\n\n  open class Main :\n    Base() \x7b\n      //<RustJNI>\n" ++
        "      // auto-generated code\n      private static native String[] g();\n\n" ++
        "      static \x7b System.loadLibrary(\"y\"); \x7d\n      //</RustJNI>\n\n" ++
        "    fun run() = g()\n  \x7d\n") := by
  intro f g
  refine (spliceAll_concat (by decide +kernel) (by decide) (by decide +kernel) _).trans ?_
  rw [splice_eq_ok_iff]
  simp only [String.toList_append]
  repeat rw [String.toList_ofList]
  decide +kernel

end JniLink.Host
