import JniLink.Proofs.Host.Block
import JniLink.Proofs.Host.Methods

/-!
# A class around a block is read back

A class in a package, with a marked block for its body, is read as the class with exactly the
library and the methods of the block, if and only if no native function is found in the name of the
library. Nothing else in such a source can be mistaken: not the package, unless a part of its name
opens a class, not the name of the class or of a method, and no type of a known class.
-/

namespace JniLink

open JniLink.Text JniLink.Host

namespace Host

/-! ## The line that names a package -/

/-- What ends the line of a package, and an empty line. -/
def packageEnd : Language → List Char
  | .kotlin => ['\n', '\n']
  | .java => [';', '\n', '\n']

/-- The line that names a package, and an empty one. -/
def packageText (language : Language) (package : String) : String :=
  "package " ++ package ++ String.ofList (packageEnd language)

/-- A dotted name of a package, no part of which is a word that opens a class. -/
def IsPackage (package : List Char) : Prop :=
  ∀ part ∈ splitWhere (· == '.') package,
    IsIdentifier part ∧ part ≠ "class".toList ∧ part ≠ "object".toList

instance decidableIsPackage (package : List Char) : Decidable (IsPackage package) :=
  inferInstanceAs (Decidable (∀ part ∈ _, _ ∧ _))

theorem toList_packageText (language : Language) (package : String) :
    (packageText language package).toList =
      "package ".toList ++ package.toList ++ packageEnd language := by
  rw [packageText, String.toList_append, String.toList_append]
  exact congrArg _ String.toList_ofList

theorem packageEnd_eq_cons (language : Language) : ∃ m r, packageEnd language = m :: r ∧
    isWord m = false ∧ m ≠ '.' := by
  cases language <;> exact ⟨_, _, rfl, by decide⟩

section Package

variable {package : List Char} (hp : IsPackage package)
include hp

theorem IsPackage.mem {c : Char} (hc : c ∈ package) : isWord c = true ∨ c = '.' := by
  rcases mem_splitWhere (· == '.') hc with hdot | ⟨part, hpart, hmem⟩
  · exact .inr (eq_of_beq hdot)
  · exact .inl ((hp part hpart).1.isWord c hmem)

theorem IsPackage.isBlank {c : Char} (hc : c ∈ package) : Text.isBlank c = false := by
  rcases hp.mem hc with hword | rfl
  · exact isBlank_of_isWord hword
  · rfl

theorem IsPackage.ne_nil : package ≠ [] := by
  rintro rfl
  exact (hp [] List.mem_cons_self).1.ne_nil rfl

/-- A keyword at a place of a package is a part of it, and the last one. -/
theorem IsPackage.keyword?_cases {front rest : List Char} {c m : Char}
    (hcut : package = front ++ c :: rest) {word : String} (hword : ∀ c ∈ word.toList, isWord c = true)
    (hm : isWord m = false) (t : List Char) :
    keyword? word (lastOr (some ' ') front) (c :: rest ++ m :: t) = none ∨
      word.toList ∈ splitWhere (· == '.') package ∧ Text.isBlank m = true ∧
        keyword? word (lastOr (some ' ') front) (c :: rest ++ m :: t) = some (trimStart t) := by
  have hblank : ∀ d ∈ c :: rest, Text.isBlank d = false := fun d hd =>
    hp.isBlank (hcut ▸ List.mem_append_right front hd)
  have hmark : m ∉ word.toList := fun hmem => by
    rw [hword m hmem] at hm
    cases hm
  rw [keyword?]
  split
  next hboundary =>
    rcases wordAndBlanks?_append hblank hmark t with hnone | ⟨hrest, hm, hread⟩
    · exact .inl hnone
    · refine .inr ⟨?_, hm, hread⟩
      -- the place is the edge of a word, so the character before it can only be a dot
      have hc : isWord c = true := hword c (hrest ▸ List.mem_cons_self)
      have hbefore : (lastOr (some ' ') front).any isWord = false := by
        rw [isBoundary, List.cons_append, List.head?_cons, Option.any_some, hc] at hboundary
        simpa using hboundary
      rw [hcut, hrest]
      refine mem_splitWhere_append (fun d hd => ?_) fun d hd => ?_
      · rcases hp.mem (hcut ▸ List.mem_append_left _ (List.mem_of_getLast? hd)) with hd' | rfl
        · rw [lastOr, Option.mem_def.mp hd, Option.some_or, Option.any_some, hd'] at hbefore
          cases hbefore
        · rfl
      · exact beq_false_of_ne (ne_of_isWord (hword d hd) (by decide))
  next => exact .inl rfl

theorem packageLine_append (language : Language) (t : List Char) :
    packageLine none ("package ".toList ++ (package ++ (packageEnd language ++ t))) =
      some (package, packageEnd language ++ t) := by
  obtain ⟨m, r, hend, hword, hdot⟩ := packageEnd_eq_cons language
  have hm : (isWord m || m == '.') = false := by
    rw [hword, Bool.false_or, beq_eq_false_iff_ne]
    exact hdot
  have hchars : ∀ c ∈ package, (isWord c || c == '.') = true := by
    intro c hc
    rw [Bool.or_eq_true, beq_iff_eq]
    exact hp.mem hc
  have hread : wordAndBlanks? "package" ("package".toList ++ ' ' :: (package ++ m :: (r ++ t))) =
      some (package ++ m :: (r ++ t)) :=
    wordAndBlanks?_append_space (isBlank_head?_append (fun c hc => hp.isBlank hc) hp.ne_nil _)
  have hspace : "package ".toList ++ (package ++ m :: (r ++ t)) =
      "package".toList ++ ' ' :: (package ++ m :: (r ++ t)) := rfl
  have htrim : trimStart ("package ".toList ++ (package ++ m :: (r ++ t))) =
      "package ".toList ++ (package ++ m :: (r ++ t)) := trimStart_cons (by decide) _
  rw [hend, List.cons_append, packageLine, Option.all_none, if_pos rfl, htrim, hspace,
    hread, Option.bind_eq_bind, Option.bind_some, run?_append_cons hm,
    run?_eq_some_self hchars hp.ne_nil]
  rfl

theorem readsNothing_classHeader_package (language : Language) (t : List Char) :
    ReadsNothing classHeader none ("package ".toList ++ package ++ packageEnd language) t := by
  obtain ⟨m, r, hend, hm, -⟩ := packageEnd_eq_cons language
  have hnone {before : Option Char} {t : List Char} (hclass : keyword? "class" before t = none)
      (hobject : keyword? "object" before t = none) : classHeader before t = none := by
    rw [classHeader, hclass, hobject]
    rfl
  have hapart {piece : List Char} (h : ∀ word ∈ ["class".toList, "object".toList], Apart word piece)
      (before : Option Char) (t : List Char) : ReadsNothing classHeader before piece t := by
    refine readsNothing_of_apart _ (fun before t hword => ?_) h before t
    exact hnone (keyword?_eq_none (hword _ (by simp))) (keyword?_eq_none (hword _ (by simp)))
  rw [readsNothing_append_iff, readsNothing_append_iff]
  refine ⟨⟨hapart (by decide) _ _, ?_⟩, hapart (by cases language <;> decide) _ _⟩
  rw [readsNothing_iff_forall, hend]
  intro front c rest hcut
  have hclass := hp.keyword?_cases hcut
    (by decide : ∀ c ∈ "class".toList, isWord c = true) hm (r ++ t)
  have hobject := hp.keyword?_cases hcut
    (by decide : ∀ c ∈ "object".toList, isWord c = true) hm (r ++ t)
  exact hnone (hclass.resolve_right fun h => (hp _ h.1).2.1 rfl)
    (hobject.resolve_right fun h => (hp _ h.1).2.2 rfl)

theorem readsNothing_native_package (language : Language) (t : List Char) :
    ReadsNothing (HostSource.native language) none
      ("package ".toList ++ package ++ packageEnd language) ("class ".toList ++ t) := by
  rw [readsNothing_append_iff, readsNothing_append_iff]
  refine ⟨⟨readsNothing_native (by cases language <;> decide) _ _, ?_⟩,
    readsNothing_native (by cases language <;> decide) _ _⟩
  rw [readsNothing_iff_forall]
  intro front c rest hcut
  cases language with
  | kotlin =>
    have hexternal := hp.keyword?_cases hcut
      (by decide : ∀ c ∈ "external".toList, isWord c = true) (by decide : isWord '\n' = false)
      ('\n' :: ("class ".toList ++ t))
    change kotlinNative (lastOr (some ' ') front)
      (c :: rest ++ '\n' :: '\n' :: ("class ".toList ++ t)) = none
    rw [kotlinNative]
    rcases hexternal with hnone | ⟨-, -, hread⟩
    · rw [hnone]
      rfl
    · -- the next word is the one that opens the class
      rw [hread]
      rfl
  | java =>
    have hnative := hp.keyword?_cases hcut
      (by decide : ∀ c ∈ "native".toList, isWord c = true) (by decide : isWord ';' = false)
      ('\n' :: '\n' :: ("class ".toList ++ t))
    have hnone := hnative.resolve_right fun h => absurd h.2.1 (by decide)
    change javaNative (lastOr (some ' ') front)
      (c :: rest ++ ';' :: '\n' :: '\n' :: ("class ".toList ++ t)) = none
    rw [javaNative, hnone]
    rfl

end Package

end Host

/-! ## The source around a block -/

/-- What a source is written from that is a class in a package with a block for its body. -/
structure BlockSource where
  language : Language
  package : String
  name : String
  indent : String
  library : String
  decls : List Declaration
  isPackage : IsPackage package.toList
  isIdentifier : IsIdentifier name.toList
  isIndent : ∀ c ∈ indent.toList, c = ' ' ∨ c = '\t'
  /-- The library has a name that can stand in a literal of one line. -/
  library_ne : library ≠ ""
  isLiteral : ∀ c ∈ library.toList, c ≠ '"' ∧ c ≠ '\\' ∧ c ≠ '\n'
  spellable : ∀ d ∈ decls, d.Spellable
  isKnown : ∀ d ∈ decls, ∀ t ∈ d.signature.ret :: d.signature.params, t.AllNames (IsKnown language)

namespace BlockSource

/-- The text of the source. -/
def text (s : BlockSource) : String :=
  packageText s.language s.package ++ classText s.name (block s.library s.decls s.language s.indent)

/-- What there is to read in the source. -/
def content (s : BlockSource) : HostSource where
  language := s.language
  owner := s.package ++ "." ++ s.name
  libraries := [s.library]
  methods := s.decls.map fun d => .ofMethod (s.package ++ "." ++ s.name) d.name d.signature

variable (s : BlockSource)

theorem isBlank_of_mem_indent : ∀ c ∈ s.indent.toList, isBlank c = true := by
  intro c hc
  rcases s.isIndent c hc with rfl | rfl <;> rfl

theorem isPlain_of_mem_indent : ∀ c ∈ s.indent.toList, IsPlain c := by
  intro c hc
  rcases s.isIndent c hc with rfl | rfl <;> decide

theorem isPlain_of_mem_package : ∀ c ∈ s.package.toList, IsPlain c := by
  intro c hc
  rcases s.isPackage.mem hc with hword | rfl
  · exact ⟨ne_of_isWord hword (by decide), ne_of_isWord hword (by decide),
      ne_of_isWord hword (by decide)⟩
  · decide

/-! ### Without comments -/

/-- The source up to the block. -/
def opening : List Char :=
  "package ".toList ++ s.package.toList ++ packageEnd s.language ++
    ("class ".toList ++ s.name.toList ++ " \x7b\n".toList)

/-- The lines of the block without its comments, up to the initializer. -/
def body : List Char :=
  s.indent.toList ++ '\n' :: (s.indent.toList ++ '\n' ::
    (declarationLines s.language s.indent.toList s.decls ++ ['\n']))

/-- The source behind the initializer. -/
def closing : List Char :=
  s.indent.toList ++ "\n\x7d\n".toList

theorem isPlain_of_mem_opening : ∀ c ∈ s.opening, IsPlain c := by
  have hend : ∀ c ∈ packageEnd s.language, IsPlain c := by
    cases s.language <;> decide
  unfold opening
  simp only [List.forall_mem_append]
  exact ⟨⟨⟨by decide, s.isPlain_of_mem_package⟩, hend⟩,
    ⟨by decide, isPlain_of_isIdentifier s.isIdentifier⟩, by decide⟩

theorem isPlain_of_mem_body : ∀ c ∈ s.body, IsPlain c := by
  have hindent := s.isPlain_of_mem_indent
  have hlines := isPlain_of_mem_declarationLines s.language hindent s.spellable
  have hfeed : IsPlain '\n' := by decide
  unfold body
  simp only [List.forall_mem_append, List.forall_mem_cons]
  exact ⟨hindent, hfeed, hindent, hfeed, hlines, hfeed, by simp⟩

theorem isPlain_of_mem_closing : ∀ c ∈ s.closing, IsPlain c := by
  unfold closing
  exact List.forall_mem_append.mpr ⟨s.isPlain_of_mem_indent, by decide⟩

theorem stripComments_text : stripComments s.text.toList =
    s.opening ++ (s.body ++ (loadText s.language s.indent.toList s.library ++ s.closing)) := by
  have hbrace : stripFrom .code "\x7d\n".toList = "\x7d\n".toList :=
    stripFrom_code_eq_self (by decide)
  have htext : s.text.toList =
      s.opening ++ (blockText s.library s.decls s.language s.indent.toList ++ "\x7d\n".toList) := by
    unfold text opening
    rw [String.toList_append, toList_packageText, toList_classText, toList_block]
    simp only [List.append_assoc]
  rw [htext, stripComments, stripFrom_code_append s.isPlain_of_mem_opening,
    stripFrom_blockText s.isLiteral s.spellable s.isPlain_of_mem_indent, hbrace]
  simp only [body, closing, List.append_assoc, List.cons_append, List.nil_append]
  rfl

/-! ### Reading -/

theorem opening_append (t : List Char) :
    s.opening ++ t = "package ".toList ++ s.package.toList ++ packageEnd s.language ++
      ("class ".toList ++ (s.name.toList ++ ' ' :: '\x7b' :: '\n' :: t)) := by
  unfold opening
  simp only [List.append_assoc]
  rfl

theorem firstMatch?_classHeader : ∃ rest,
    firstMatch? classHeader none (stripComments s.text.toList) = some (s.name.toList, rest) := by
  have hlast : (lastOr none ("package ".toList ++ s.package.toList ++ packageEnd s.language)).any
      isWord = false := by
    rw [lastOr_append]
    cases s.language <;> rfl
  rw [stripComments_text, opening_append,
    firstMatch?_append (readsNothing_classHeader_package s.isPackage _ _)]
  exact ⟨_, firstMatch?_of_eq_some (classHeader_append hlast s.isIdentifier _)⟩

theorem firstMatch?_packageLine : ∃ rest,
    firstMatch? packageLine none (stripComments s.text.toList) = some (s.package.toList, rest) := by
  rw [stripComments_text, opening_append, List.append_assoc, List.append_assoc]
  exact ⟨_, firstMatch?_of_eq_some (packageLine_append s.isPackage _ _)⟩

/-- The native functions are those of the declarations, and then what is found in the initializer. -/
theorem allMatches_native :
    allMatches (HostSource.native s.language) none 0 (stripComments s.text.toList) =
      s.decls.map (nativeOf s.language) ++ allMatches (HostSource.native s.language) (some '\n') 0
        (loadText s.language s.indent.toList s.library ++ s.closing) := by
  have hindent := s.isBlank_of_mem_indent
  have hfeed : Apart (nativeWord s.language) ['\n'] :=
    apart_nativeWord_of_blank (by decide) s.language
  have hempty := (apart_nativeWord_of_blank hindent s.language).append hfeed
  have hopening (t : List Char) : ReadsNothing (HostSource.native s.language) none s.opening t := by
    unfold opening
    rw [readsNothing_append_iff]
    refine ⟨?_, readsNothing_native_classLine s.isIdentifier _ _ _⟩
    rw [List.append_assoc, List.append_assoc]
    exact readsNothing_native_package s.isPackage _ _
  have hload : (trimStart (['\n'] ++ (loadText s.language s.indent.toList s.library ++
      s.closing))).head? ≠ some ':' := by
    rw [loadText, List.append_assoc, List.append_assoc]
    exact head?_trimStart_beforeLoad hindent _ _
  have hbody (t : List Char) : s.body ++ t =
      s.indent.toList ++ ['\n'] ++ (s.indent.toList ++ ['\n']) ++
        (declarationLines s.language s.indent.toList s.decls ++ (['\n'] ++ t)) := by
    simp only [body, List.append_assoc, List.cons_append, List.nil_append]
  have hlast : lastOr none s.opening = some '\n' := by
    unfold opening
    rw [lastOr_append, lastOr_append]
    rfl
  rw [stripComments_text, allMatches_append (hopening _), hlast, hbody,
    allMatches_append (readsNothing_native (hempty.append hempty) _ _), ← List.append_assoc,
    lastOr_concat, allMatches_declarationLines s.spellable hindent hload,
    allMatches_append (readsNothing_native hfeed _ _)]
  rfl

theorem allMatches_libraryLoad :
    allMatches libraryLoad none 0 (stripComments s.text.toList) = [s.library.toList] := by
  have hnot {t : List Char} (h : ∀ c ∈ t, IsPlain c) : '"' ∉ t := fun hmem => (h _ hmem).1 rfl
  have hindent := s.isPlain_of_mem_indent
  have hfront : '"' ∉ s.opening ++ (s.body ++ beforeLoad s.language s.indent.toList) := by
    refine hnot ?_
    simp only [List.forall_mem_append]
    exact ⟨s.isPlain_of_mem_opening, s.isPlain_of_mem_body, isPlain_of_mem_beforeLoad _ hindent⟩
  have hback : '"' ∉ afterLoad s.language s.indent.toList ++ s.closing := by
    refine hnot ?_
    simp only [List.forall_mem_append]
    exact ⟨isPlain_of_mem_afterLoad hindent, s.isPlain_of_mem_closing⟩
  have hlibrary : '"' ∉ s.library.toList := fun hmem => (s.isLiteral _ hmem).1 rfl
  have hne : s.library.toList ≠ [] := fun h => s.library_ne (String.toList_eq_nil_iff.mp h)
  have hread := Host.allMatches_libraryLoad none hfront hlibrary hne hback
  rw [stripComments_text, loadText]
  simpa only [List.append_assoc, List.cons_append] using hread

end BlockSource

namespace HostSource

/-- There is a method for each native function. -/
theorem length_methods {language : Language} {code : List Char} {src : HostSource}
    (h : ofCode language code = .ok src) :
    src.methods.length = (allMatches (native language) none 0 code).length := by
  obtain ⟨⟨name, rest⟩, -, h⟩ := bind_eq_ok.mp h
  obtain ⟨methods, hmethods, h⟩ := bind_eq_ok.mp h
  cases h
  exact length_of_mapM_eq_ok hmethods

/-- A class around a block is read with exactly the library and the methods of the block, if and only
if no native function is found in the initializer that loads the library. -/
theorem ofText_block_eq_ok_iff (s : BlockSource) :
    ofText s.language s.text = .ok s.content ↔ Silent s.language s.library := by
  have hliteral : ∀ c ∈ s.library.toList, c ≠ '"' ∧ c ≠ '\\' :=
    fun c hc => ⟨(s.isLiteral c hc).1, (s.isLiteral c hc).2.1⟩
  have hclosing : Apart (nativeWord s.language) s.closing :=
    (apart_nativeWord_of_blank s.isBlank_of_mem_indent _).append (by cases s.language <;> decide)
  have htail : allMatches (native s.language) (some '\n') 0
      (loadText s.language s.indent.toList s.library ++ s.closing) = [] ↔
        Silent s.language s.library :=
    allMatches_native_loadText_eq_nil_iff_silent hliteral s.isBlank_of_mem_indent hclosing
  have hnatives := s.allMatches_native
  rw [← htail]
  constructor
  · intro h
    have hlength := length_methods h
    rw [hnatives, List.length_append, List.length_map, BlockSource.content, List.length_map]
      at hlength
    exact List.length_eq_zero_iff.mp (by omega)
  · intro hsilent
    rw [hsilent, List.append_nil] at hnatives
    obtain ⟨_, hclass⟩ := s.firstMatch?_classHeader
    obtain ⟨_, hpackage⟩ := s.firstMatch?_packageLine
    have hread := ofCode_of_natives hclass rfl hnatives s.spellable fun d hd t ht =>
      JvmType.readsBack (((s.spellable d hd).types t ht).and
        ((s.isKnown d hd t ht).imp fun _ => notMem_shadowedNames))
    have hok := hread.resolve_right fun ⟨_, d, hd, t, ht, hunknown⟩ => hunknown (s.isKnown d hd t ht)
    have howner : String.ofList (s.package.toList ++ '.' :: s.name.toList) =
        s.package ++ "." ++ s.name := by
      rw [← String.toList_inj, String.toList_ofList, String.toList_append, String.toList_append,
        List.append_assoc]
      rfl
    rw [hpackage, s.allMatches_libraryLoad, List.map_singleton, String.ofList_toList] at hok
    simp only [howner] at hok
    exact hok

/-- Keywords may be parts of the package, names of methods and words of the library. -/
theorem ofText_block_keywords :
    ofText .java (packageText .java "fun.external" ++ classText "native"
        (block "static native void"
          [.ofMethod "C" "final" ⟨[.array (.object "a/B$C")], .object "static/native"⟩]
          .java "\t ")) =
      .ok ⟨.java, "fun.external.native", ["static native void"],
        [.ofMethod "fun.external.native" "final"
          ⟨[.array (.object "a/B$C")], .object "static/native"⟩]⟩ :=
  (ofText_block_eq_ok_iff {
    language := .java
    package := "fun.external"
    name := "native"
    indent := "\t "
    library := "static native void"
    decls := [.ofMethod "C" "final" ⟨[.array (.object "a/B$C")], .object "static/native"⟩]
    isPackage := by decide
    isIdentifier := by decide
    isIndent := by decide
    library_ne := by decide
    isLiteral := by decide
    spellable := by decide +kernel
    isKnown := by decide +kernel }).mpr (silent_of_notMem (by decide) _)

/-- A function that the name of the library declares is read as one of the class. -/
theorem ofText_block_native_in_library :
    ∃ s : BlockSource, s.language = .kotlin ∧ s.library = "external fun g()" ∧
      ofText s.language s.text = .ok { s.content with
        methods := s.content.methods ++ [.ofMethod s.content.owner "g" ⟨[], .void⟩] } := by
  refine ⟨{
    language := .kotlin
    package := "p"
    name := "C"
    indent := ""
    library := "external fun g()"
    decls := [.ofMethod "p.C" "f" ⟨[.primitive .int], .void⟩]
    isPackage := by decide
    isIdentifier := by decide
    isIndent := by decide
    library_ne := by decide
    isLiteral := by decide
    spellable := by decide +kernel
    isKnown := by decide +kernel }, rfl, rfl, ?_⟩
  rw [ofText, BlockSource.stripComments_text]
  decide +kernel

end HostSource

end JniLink
